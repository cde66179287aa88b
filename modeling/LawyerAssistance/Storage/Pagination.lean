import LawyerAssistance.Storage.ConflictCopies

/-!
# Following the cursors

The pages of a list are its rows, each of them once, in strictly decreasing order. The cursor
of `summary_page` is a boundary and nothing else: it does not remember its list. The cursor
of `draft_conflicts_page` is refused for another document.
-/

namespace LawyerAssistance.Storage

open Keyset

section Pagination

variable {host : Host} {base64 : Base64} {database : Database} {limit : Nat}

/-- The times of the index are integers of the database. -/
def Database.TimesFit (database : Database) : Prop :=
  ∀ key index, database.objectIndex.lookup key = some index → index.updatedAt ≤ I64_MAX

/-- The index rows which a condition selects. -/
def Database.rowsWhere (database : Database) (condition : IndexRow → Bool) : List IndexRow :=
  (database.objectIndex.entries.map fun row => (row.1, row.2)).filter condition

/-- The pages of summaries from a boundary on. -/
theorem exists_summary_pages (lawful : base64.Lawful) {filter : IndexFilter}
    (pageable : Pageable host database filter) (admittedLimit : 1 ≤ limit ∧ limit ≤ 100)
    (now accepted : Nat) (boundary : Option (Nat ×ₗ String))
    (admitted : ∀ last ∈ boundary, Admissible last) :
    ∃ pages, Traverses (summaryReader host base64 filter limit now accepted database)
        (boundary.map (cursorOf base64)) pages ∧
      List.Forall₂ (ShownAs host database)
        ((newestFirst database filter.selects).filter (beyond sortKey boundary)) pages.flatten := by
  have decreasing : Decreasing sortKey (newestFirst database filter.selects) :=
    decreasing_newestFirst fun _ selected => IndexFilter.kind_of_selects selected
  obtain ⟨pages, follows, flat⟩ := exists_traversal decreasing (by omega)
    (reads_summaryReader lawful pageable admittedLimit now accepted) pageable.admissible boundary
    admitted
  refine ⟨pages, follows, ?_⟩
  rw [flat, List.forall₂_map_right_iff, List.forall₂_same]
  intro row member
  obtain ⟨item, shown⟩ := pageable.shown row (List.mem_filter.mp member).1
  rwa [shownItem_eq shown]

/-- The pages of conflict copies from the first one on. -/
theorem exists_conflict_pages (lawful : base64.Lawful) {baseId : String}
    (valid : validWritingDraftBase baseId = true) (fits : database.TimesFit)
    (admittedLimit : 1 ≤ limit ∧ limit ≤ 100) :
    ∃ pages, Traverses (conflictReader base64 baseId limit database) none pages ∧
      pages.flatten = (conflictRows baseId database).map conflictItem := by
  have issued : ∀ row ∈ conflictRows baseId database, ConflictBoundary baseId (sortKey row) :=
    fun row listed => ⟨fits _ _ (mem_newestFirst.mp listed).1, (conflictCopy_of_mem valid listed).2⟩
  obtain ⟨pages, follows, flat⟩ := exists_traversal (decreasing_conflictRows valid) (by omega)
    (reads_conflictReader lawful valid admittedLimit) issued none (fun _ member => nomatch member)
  rw [filter_beyond_none] at flat
  exact ⟨pages, follows, flat⟩

/-- The damaged row of a page is a row of the list. -/
theorem openSummaries_damaged {rows : List (IndexRow × Octets)} {key : Key} {code : String}
    (damaged : openSummaries host rows = .error (key, code)) :
    ∃ row ∈ rows, row.1.1 = key := by
  induction rows with
  | nil => cases damaged
  | cons row rest inductionHypothesis =>
      simp only [openSummaries] at damaged
      split at damaged
      · cases damaged
        exact ⟨row, List.mem_cons_self, rfl⟩
      · split at damaged
        · next failed =>
            cases damaged
            obtain ⟨other, member, same⟩ := inductionHypothesis failed
            exact ⟨other, List.mem_cons_of_mem _ member, same⟩
        · cases damaged

/-- A quarantine within a page refuses the page. -/
theorem quarantineAndRefuse_eq (key : Key) (code : String) (now accepted : Nat) :
    ∃ error, quarantineAndRefuse key code now accepted database =
      ((.error error : Except String SummaryPage),
        (quarantine key code now accepted database).2) := by
  unfold quarantineAndRefuse
  rcases quarantine key code now accepted database with ⟨error | _, tables⟩
  · exact ⟨error, rfl⟩
  · exact ⟨"storage_object_corrupt", rfl⟩

/-- A page which is answered was asked for with a cursor which is read back, and its own cursor is
that of the rows which it read. -/
theorem summaryReader_answers {filter : IndexFilter} {now accepted : Nat}
    {cursor next : Option String} {items : List Json}
    (answered : summaryReader host base64 filter limit now accepted database cursor =
      .ok (items, next)) :
    ∃ boundary, decodeCursors base64 cursor = .ok boundary ∧
      next = nextCursor base64 ((readSummaries database filter boundary limit).map Prod.fst) limit
    := by
  rw [summaryReader, summaryPage] at answered
  split at answered
  · cases answered
  · next boundary checked =>
      obtain ⟨_, _, decoded⟩ := bind_eq_ok.mp checked
      refine ⟨boundary, decoded, ?_⟩
      split at answered
      · next key _ =>
          obtain ⟨error, refused⟩ := @quarantineAndRefuse_eq database key "summary_missing" now
            accepted
          rw [refused] at answered
          cases answered
      · dsimp only at answered
        split at answered
        · next key code _ =>
            obtain ⟨error, refused⟩ := @quarantineAndRefuse_eq database key code now accepted
            rw [refused] at answered
            cases answered
        · cases answered
          rfl

/-- Behind a row with an identifier which is too long for a cursor, the pages are not reached. -/
theorem not_traverses_of_long (lawful : base64.Lawful) {filter : IndexFilter} {now accepted : Nat}
    {first second : IndexRow} (long : 200 < (utf8 first.1.2).length)
    (rows : (readSummaries database filter none 1).map Prod.fst = [first, second])
    (pages : List (List Json)) :
    ¬ Traverses (summaryReader host base64 filter 1 now accepted database) none pages := by
  intro traverses
  obtain ⟨_, next, answered, follows⟩ := traverses.answers
  obtain ⟨boundary, decoded, rfl⟩ := summaryReader_answers answered
  cases decoded
  rw [rows] at follows
  obtain ⟨_, rest⟩ := follows (encodeCursor base64 first.2.updatedAt first.1.2) rfl
  obtain ⟨_, _, answered, _⟩ := rest.answers
  obtain ⟨_, decodes, _⟩ := summaryReader_answers answered
  rw [decodeCursors] at decodes
  cases read : decodeCursor base64 (encodeCursor base64 first.2.updatedAt first.1.2) with
  | error error =>
      rw [read] at decodes
      cases decodes
  | ok decoded => exact decodeCursor_of_long lawful long decoded read

/-- What a call of `summary_page` leaves: the store as it is, or one row of the list marked, and
then the call is refused. -/
theorem summaryPage_leaves (filter : IndexFilter) (cursor : Option String) (now accepted : Nat) :
    let answer := summaryPage host base64 filter cursor limit now accepted database
    answer.2 = database ∨ ∃ row ∈ newestFirst database filter.selects, ∃ code error,
      answer = (.error error, database.quarantined row.1 ⟨code, now⟩) := by
  have marks : ∀ row ∈ newestFirst database filter.selects, ∀ code,
      let answer : Except String SummaryPage × Database :=
        quarantineAndRefuse row.1 code now accepted database
      answer.2 = database ∨ ∃ row ∈ newestFirst database filter.selects, ∃ code error,
        answer = (.error error, database.quarantined row.1 ⟨code, now⟩) := by
    intro row listed code answer
    obtain ⟨error, refused⟩ := quarantineAndRefuse_eq row.1 code now accepted
    obtain kept | marked := quarantine_cases row.1 code now accepted database
    · exact .inl ((congrArg Prod.snd refused).trans kept)
    · exact .inr ⟨row, listed, code, error, refused.trans (by rw [marked])⟩
  intro answer
  simp only [answer, summaryPage]
  split
  · exact .inl rfl
  · split
    · next key missing =>
        obtain ⟨row, found, rfl⟩ := Option.map_eq_some_iff.mp missing
        exact marks row (List.mem_of_find?_eq_some found) _
    · split
      · next damaged =>
          obtain ⟨row, member, rfl⟩ := openSummaries_damaged damaged
          exact marks row.1 (mem_readSummaries (List.mem_of_mem_take member)).1 _
      · exact .inl rfl

/-- The rows of a list: what a condition selects, each row once, in strictly decreasing order of
time and identifier. -/
structure Listing (database : Database) (condition : IndexRow → Bool) (rows : List IndexRow) :
    Prop where
  selected : rows.Perm (database.rowsWhere condition)
  decreasing : Decreasing sortKey rows

/-- Following the cursors of both lists ends and shows their rows, each of them once and in order.
From the cursor of another list on, `summary_page` shows the rows below its boundary, while
`draft_conflicts_page` refuses the cursor of another document. A call of `summary_page` which
meets a damaged row is refused, and leaves at most a mark of this row. -/
theorem cursors_partition_lists (lawful : base64.Lawful) (fits : database.TimesFit)
    (admittedLimit : 1 ≤ limit ∧ limit ≤ 100) (now accepted : Nat) :
    (∀ filter, Pageable host database filter → ∃ rows, Listing database filter.selects rows ∧
      ∀ boundary, (∀ last ∈ boundary, Admissible last) →
        ∃ pages, Traverses (summaryReader host base64 filter limit now accepted database)
            (boundary.map (cursorOf base64)) pages ∧
          List.Forall₂ (ShownAs host database) (rows.filter (beyond sortKey boundary))
            pages.flatten) ∧
    (∀ filter cursor, let answer := summaryPage host base64 filter cursor limit now accepted database
      answer.2 = database ∨ ∃ row ∈ database.rowsWhere filter.selects, ∃ code error,
        answer = (.error error, database.quarantined row.1 ⟨code, now⟩)) ∧
    ∀ baseId, validWritingDraftBase baseId = true →
      (∃ rows, Listing database (fun row => conflictCandidate baseId row.1) rows ∧
        ∃ pages, Traverses (conflictReader base64 baseId limit database) none pages ∧
          pages.flatten = rows.map conflictItem) ∧
      ∀ cursor page next, draftConflictsPage base64 baseId cursor limit database = .ok page →
        page.nextCursor = some next → ∀ other, other ≠ baseId → ∀ limit database,
          ∃ error, draftConflictsPage base64 other (some next) limit database = .error error := by
  refine ⟨fun filter pageable => ?_, fun filter cursor => ?_, fun baseId valid => ⟨?_, ?_⟩⟩
  · refine ⟨newestFirst database filter.selects, ⟨newestFirst_perm _ _, ?_⟩, ?_⟩
    · exact decreasing_newestFirst fun _ selected => IndexFilter.kind_of_selects selected
    · exact exists_summary_pages lawful pageable admittedLimit now accepted
  · obtain kept | ⟨row, listed, marked⟩ :=
      @summaryPage_leaves host base64 database limit filter cursor now accepted
    · exact .inl kept
    · exact .inr ⟨row, (newestFirst_perm _ _).mem_iff.mp listed, marked⟩
  · exact ⟨_, ⟨newestFirst_perm _ _, decreasing_conflictRows valid⟩,
      exists_conflict_pages lawful valid fits admittedLimit⟩
  · intro cursor page next answered issued other different limit database
    obtain ⟨_, row, listed, rfl⟩ := draftConflictsPage_issues answered issued
    exact draftConflictsPage_refuses lawful different.symm
      (fits _ _ (mem_newestFirst.mp listed).1) valid (conflictCopy_of_mem valid listed).2

end Pagination

/-! ## Examples -/

/-- Base64 of the URL alphabet. -/
def urlSafe : Base64 := ⟨Base64Url.encode, Base64Url.decode⟩

theorem urlSafe_lawful : urlSafe.Lawful := Base64Url.decode_encode

/-- A JSON library which reads back `null` and the summaries of objects which hold `null`. -/
def knownSummaries (keys : List Key) : Codec Json where
  fromSlice bytes :=
    (Json.null :: keys.map fun key =>
      summaryForValue key.1 key.2 .null (indexForValue .null ⟨1, 1⟩)).find? fun value =>
        utf8 value.print = bytes
  toVec value := some (utf8 value.print)

/-- The services of a store with some objects. -/
def listingHost (keys : List Key) : Host :=
  ⟨marker, knownSummaries keys, ⟨fun _ => none, fun _ => none⟩⟩

/-- A store after one batch of objects which hold `null`, all of one time. -/
def sampleRows (keys : List Key) : Database :=
  ((storeMachine (listingHost keys)).run Database.created
    [.putMany 40 (keys.map fun key => .value noSalts ⟨1, 1⟩ key (utf8 "null"))]).getD
      Database.created

/-- The tasks of the examples. -/
def allTasks : IndexFilter := ⟨"task", none, none⟩

/-- Two tasks, a group and two conflict copies of the current document. -/
def sampleKeys : List Key :=
  [("task", "t_1"), ("task", "t_2"), ("group", "g_1"),
    ("ai_draft", "writing-current-c-" ++ String.ofList (List.replicate 32 '1')),
    ("ai_draft", "writing-current-c-" ++ String.ofList (List.replicate 32 '2'))]

theorem timesFit_sampleRows : (sampleRows sampleKeys).TimesFit := by
  have times : ∀ row ∈ (sampleRows sampleKeys).objectIndex.entries, row.2.updatedAt ≤ I64_MAX := by
    decide +kernel
  exact fun key index stored => times ⟨key, index⟩ (AList.mem_lookup_iff.mp stored)

theorem pageable_sampleRows :
    Pageable (listingHost sampleKeys) (sampleRows sampleKeys) allTasks := by
  have identifiers : ∀ row ∈ newestFirst (sampleRows sampleKeys) allTasks.selects,
      row.1.2 ≠ "" ∧ (utf8 row.1.2).length ≤ 200 := by decide +kernel
  have opens : ∀ row ∈ newestFirst (sampleRows sampleKeys) allTasks.selects,
      ((sampleRows sampleKeys).objectSummaries.lookup row.1).any fun body =>
        (openAs (knownSummaries sampleKeys) marker (summaryKind row.1.1) row.1.2 body).isOk := by
    decide +kernel
  refine ⟨fun row listed => ?_, fun row listed => ?_⟩
  · exact ⟨timesFit_sampleRows _ _ (mem_newestFirst.mp listed).1, (identifiers row listed).1,
      (identifiers row listed).2⟩
  · have opened := opens row listed
    rw [Option.any_eq_true] at opened
    obtain ⟨body, stored, opened⟩ := opened
    cases shown : openAs (knownSummaries sampleKeys) marker (summaryKind row.1.1) row.1.2 body with
    | error error =>
        rw [shown] at opened
        cases opened
    | ok item => exact ⟨item, body, stored, shown⟩

/-- Two conflict copies and two tasks of one time, in pages of one row. -/
theorem cursors_partition_lists_ties :
    (∃ rows, Listing (sampleRows sampleKeys) allTasks.selects rows ∧
      ∃ pages, Traverses (summaryReader (listingHost sampleKeys) urlSafe allTasks 1 9 9
          (sampleRows sampleKeys)) none pages ∧
        List.Forall₂ (ShownAs (listingHost sampleKeys) (sampleRows sampleKeys)) rows
          pages.flatten) ∧
      ∃ rows, Listing (sampleRows sampleKeys)
          (fun row => conflictCandidate "writing-current" row.1) rows ∧
        ∃ pages, Traverses (conflictReader urlSafe "writing-current" 1 (sampleRows sampleKeys))
            none pages ∧
          pages.flatten = rows.map conflictItem := by
  obtain ⟨summaries, _, conflicts⟩ := @cursors_partition_lists (listingHost sampleKeys) urlSafe
    (sampleRows sampleKeys) 1 urlSafe_lawful timesFit_sampleRows (by decide) 9 9
  refine ⟨?_, (conflicts "writing-current" (by decide)).1⟩
  obtain ⟨rows, listing, follows⟩ := summaries allTasks pageable_sampleRows
  obtain ⟨pages, traverses, shown⟩ := follows none (fun _ member => nomatch member)
  rw [filter_beyond_none] at shown
  exact ⟨rows, listing, pages, traverses, shown⟩

/-- An identifier which is too long for a cursor. -/
def longId : String := String.ofList (List.replicate 201 'x')

/-- A cursor which was issued for the tasks is a boundary of the groups, a damaged summary refuses
the page, and an identifier of more than 200 bytes ends in a cursor which is refused. -/
theorem summary_cursors_are_not_bound :
    (∃ cursor, (summaryReader (listingHost sampleKeys) urlSafe allTasks 1 9 9
        (sampleRows sampleKeys) none).toOption.map Prod.snd = some (some cursor) ∧
      (summaryReader (listingHost sampleKeys) urlSafe ⟨"group", none, none⟩ 1 9 9
        (sampleRows sampleKeys) (some cursor)).isOk = true) ∧
    (∀ pages, ¬ Traverses (summaryReader (listingHost sampleKeys) urlSafe allTasks 1 9 9
      { sampleRows sampleKeys with
        objectSummaries := AList.singleton ("task", "t_1") [80] }) none pages) ∧
    ∀ pages, ¬ Traverses (summaryReader (listingHost [("task", "t_1"), ("task", longId)]) urlSafe
      allTasks 1 9 9 (sampleRows [("task", "t_1"), ("task", longId)])) none pages := by
  refine ⟨?_, ?_, ?_⟩
  · have issued : (((summaryReader (listingHost sampleKeys) urlSafe allTasks 1 9 9
        (sampleRows sampleKeys) none).toOption.bind Prod.snd).any fun cursor =>
          (summaryReader (listingHost sampleKeys) urlSafe ⟨"group", none, none⟩ 1 9 9
            (sampleRows sampleKeys) (some cursor)).isOk) = true := by decide +kernel
    rw [Option.any_eq_true] at issued
    obtain ⟨cursor, issued, answered⟩ := issued
    obtain ⟨page, read, next⟩ := Option.bind_eq_some_iff.mp issued
    exact ⟨cursor, by rw [read, Option.map_some, next], answered⟩
  · intro pages traverses
    obtain ⟨_, _, answered, _⟩ := traverses.answers
    have refused : (summaryReader (listingHost sampleKeys) urlSafe allTasks 1 9 9
      { sampleRows sampleKeys with
        objectSummaries := AList.singleton ("task", "t_1") [80] } none).isOk = false := by
      decide +kernel
    rw [answered] at refused
    cases refused
  · have rows : (readSummaries (sampleRows [("task", "t_1"), ("task", longId)]) allTasks none
        1).map Prod.fst = [(("task", longId), indexForValue .null ⟨1, 1⟩),
          (("task", "t_1"), indexForValue .null ⟨1, 1⟩)] := by decide +kernel
    have long : 200 < (utf8 longId).length := by decide +kernel
    exact @not_traverses_of_long _ urlSafe _ urlSafe_lawful allTasks 9 9
      (("task", longId), indexForValue .null ⟨1, 1⟩) (("task", "t_1"), indexForValue .null ⟨1, 1⟩)
      long rows

end LawyerAssistance.Storage

import Mathlib.Data.List.Infix
import LawyerAssistance.Storage.Partition

/-!
# Conflict copies of a writing document

The conflict copies of a document are found by a range of identifiers. The range is the
identifiers which start with the document, so that a cursor of another document is refused.
-/

namespace LawyerAssistance.Storage

open Keyset

/-! ## Identifiers -/

section Identifiers

/-- What is between a text with a hyphen and the same text with a full stop starts with the first. -/
theorem append_hyphen_of_between {front text : List Char} (above : ¬ text < front ++ ['-'])
    (below : text < front ++ ['.']) : ∃ rest, text = front ++ '-' :: rest := by
  induction front generalizing text with
  | nil =>
      cases text with
      | nil => exact absurd (List.nil_lt_cons '-' []) above
      | cons character rest =>
          rw [List.nil_append, List.cons_lt_cons_iff] at above below
          obtain ⟨lower, _⟩ := not_or.mp above
          have upper : character < '.' := below.resolve_right fun both => List.not_lt_nil _ both.2
          have same : character = '-' := by
            refine Char.ext (UInt32.toNat_inj.mp ?_)
            have atLeast : ¬ character.val.toNat < 45 := lower
            have atMost : character.val.toNat < 46 := upper
            have hyphen : ('-' : Char).val.toNat = 45 := rfl
            omega
          exact ⟨rest, by rw [same, List.nil_append]⟩
  | cons first front inductionHypothesis =>
      cases text with
      | nil => exact absurd (List.nil_lt_cons _ _) above
      | cons character rest =>
          rw [List.cons_append, List.cons_lt_cons_iff] at above below
          obtain ⟨notLower, notRest⟩ := not_or.mp above
          obtain lower | ⟨rfl, restBelow⟩ := below
          · exact absurd lower notLower
          · obtain ⟨tail, rfl⟩ := inductionHypothesis (fun lower => notRest ⟨rfl, lower⟩) restBelow
            exact ⟨tail, rfl⟩

/-- The identifier of a conflict copy of a document. -/
def ConflictCopy (baseId id : String) : Prop :=
  ∃ suffix : List Char, id.toList = (baseId ++ "-c-").toList ++ suffix ∧ suffix.length = 32 ∧
    suffix.all hexDigit = true

theorem ConflictCopy.unique {one other id : String} (first : ConflictCopy one id)
    (second : ConflictCopy other id) : one = other := by
  obtain ⟨suffix, spelled, length, _⟩ := first
  obtain ⟨suffix', spelled', length', _⟩ := second
  have fronts := List.append_inj_left' (spelled.symm.trans spelled') (length.trans length'.symm)
  rw [String.toList_append, String.toList_append] at fronts
  exact String.toList_inj.mp (List.append_cancel_right fronts)

variable {baseId : String}

theorem ascii_of_documentCharacter {character : Char}
    (admitted : documentCharacter character = true) : character.val ≤ 127 := by
  have letters : character.isAlpha = (character.isUpper || character.isLower) := rfl
  simp only [documentCharacter, Char.isAlphanum, letters, Bool.or_eq_true, beq_iff_eq] at admitted
  obtain ((((upper | lower) | digit) | rfl) | rfl) := admitted
  · exact UInt32.le_trans (of_decide_eq_true upper).2 (by decide)
  · exact UInt32.le_trans (of_decide_eq_true (Bool.and_eq_true_iff.mp lower).2) (by decide)
  · exact UInt32.le_trans (of_decide_eq_true (Bool.and_eq_true_iff.mp digit).2) (by decide)
  · decide
  · decide

theorem ascii_of_hexDigit {character : Char} (digit : hexDigit character = true) :
    character.val ≤ 127 := by
  simp only [hexDigit, Char.isDigit, Bool.or_eq_true, Bool.and_eq_true, decide_eq_true_eq]
    at digit
  obtain ⟨_, decimal⟩ | ⟨_, letter⟩ := digit
  · exact UInt32.le_trans decimal (by decide)
  · exact UInt32.le_trans letter (by decide)

/-- The documents have ASCII identifiers of at most 44 bytes. -/
theorem ascii_of_validWritingDraftBase (valid : validWritingDraftBase baseId = true) :
    (∀ character ∈ baseId.toList, character.val ≤ 127) ∧ (utf8 baseId).length ≤ 44 := by
  rw [validWritingDraftBase, Bool.or_eq_true, beq_iff_eq] at valid
  obtain rfl | named := valid
  · exact ⟨by simp, by decide⟩
  · cases spelled : "writing-".toList.isPrefixOf? baseId.toList with
    | none =>
        rw [spelled] at named
        exact absurd named Bool.false_ne_true
    | some documentId =>
        simp only [spelled, Bool.and_eq_true, decide_eq_true_eq] at named
        obtain ⟨⟨_, short⟩, characters⟩ := named
        refine ⟨fun character member => ?_, short⟩
        rw [← List.append_eq_of_isPrefixOf?_eq_some spelled, List.mem_append] at member
        obtain inFront | inDocument := member
        · have front : ∀ character ∈ "writing-".toList, character.val ≤ 127 := by simp
          exact front character inFront
        · exact ascii_of_documentCharacter (List.all_eq_true.mp characters character inDocument)

/-- The front of the conflict copies is ASCII too. -/
theorem ascii_front (valid : validWritingDraftBase baseId = true) :
    ∀ character ∈ (baseId ++ "-c-").toList, character.val ≤ 127 := by
  intro character member
  rw [String.toList_append, List.mem_append] at member
  obtain inBase | inMark := member
  · exact (ascii_of_validWritingDraftBase valid).1 character inBase
  · have mark : ∀ character ∈ "-c-".toList, character.val ≤ 127 := by simp
    exact mark character inMark

/-- The query finds the conflict copies of the document. -/
theorem conflictCopy_of_candidate {key : Key} (valid : validWritingDraftBase baseId = true)
    (candidate : conflictCandidate baseId key = true) :
    key.1 = "ai_draft" ∧ ConflictCopy baseId key.2 := by
  simp only [conflictCandidate, Bool.and_eq_true, decide_eq_true_eq, beq_iff_eq,
    length_utf8_of_ascii (ascii_front valid)] at candidate
  obtain ⟨⟨⟨⟨kind, above⟩, below⟩, length⟩, digits⟩ := candidate
  refine ⟨kind, ?_⟩
  have starts : ∃ rest, key.2.toList = (baseId ++ "-c").toList ++ '-' :: rest := by
    have fromFront := String.le_iff_toList_le.mp above
    have toBound := String.lt_iff_toList_lt.mp below
    rw [String.toList_append] at fromFront toBound ⊢
    refine append_hyphen_of_between (not_lt.mpr ?_) ?_
    · simpa using fromFront
    · simpa using toBound
  obtain ⟨suffix, spelled⟩ := starts
  have front : key.2.toList = (baseId ++ "-c-").toList ++ suffix := by
    rw [spelled]
    simp
  refine ⟨suffix, front, ?_, ?_⟩
  · rw [← String.length_toList, front, List.length_append] at length
    omega
  · rwa [front, List.drop_left] at digits

/-- The identifier of a conflict copy passes the check of cursors. -/
theorem ConflictCopy.valid {id : String} (copy : ConflictCopy baseId id)
    (valid : validWritingDraftBase baseId = true) :
    validDraftConflictId (baseId ++ "-c-") id = true := by
  obtain ⟨suffix, spelled, length, digits⟩ := copy
  have ascii : ∀ character ∈ id.toList, character.val ≤ 127 := by
    intro character member
    rw [spelled, List.mem_append] at member
    obtain inFront | inSuffix := member
    · exact ascii_front valid character inFront
    · exact ascii_of_hexDigit (List.all_eq_true.mp digits character inSuffix)
  have found : (baseId ++ "-c-").toList.isPrefixOf? id.toList = some suffix :=
    List.isPrefixOf?_eq_some_iff_append_eq.mpr spelled.symm
  simp only [validDraftConflictId, found, digits, length_utf8_of_ascii ascii,
    length_utf8_of_ascii (ascii_front valid), Bool.and_true, beq_iff_eq]
  rw [spelled, List.length_append, length]

/-- An identifier which passes the check of cursors is that of a conflict copy. -/
theorem conflictCopy_of_valid {id : String} (valid : validWritingDraftBase baseId = true)
    (passes : validDraftConflictId (baseId ++ "-c-") id = true) : ConflictCopy baseId id := by
  rw [validDraftConflictId, Bool.and_eq_true, beq_iff_eq] at passes
  obtain ⟨length, digits⟩ := passes
  cases found : (baseId ++ "-c-").toList.isPrefixOf? id.toList with
  | none =>
      rw [found] at digits
      exact absurd digits Bool.false_ne_true
  | some suffix =>
      rw [found] at digits
      have spelled := List.append_eq_of_isPrefixOf?_eq_some found
      have ascii : ∀ character ∈ id.toList, character.val ≤ 127 := by
        intro character member
        rw [← spelled, List.mem_append] at member
        obtain inFront | inSuffix := member
        · exact ascii_front valid character inFront
        · exact ascii_of_hexDigit (List.all_eq_true.mp digits character inSuffix)
      rw [length_utf8_of_ascii ascii, length_utf8_of_ascii (ascii_front valid), ← spelled,
        List.length_append] at length
      exact ⟨suffix, spelled.symm, by omega, digits⟩

/-- The cursors of conflict copies are short. -/
theorem ConflictCopy.admissible {id : String} (copy : ConflictCopy baseId id)
    (valid : validWritingDraftBase baseId = true) : id ≠ "" ∧ (utf8 id).length ≤ 200 := by
  have passes := copy.valid valid
  have short := (ascii_of_validWritingDraftBase valid).2
  rw [validDraftConflictId, Bool.and_eq_true, beq_iff_eq, utf8_append, List.length_append] at passes
  have mark : (utf8 "-c-").length = 3 := by decide
  refine ⟨?_, by omega⟩
  rintro rfl
  have empty : (utf8 "").length = 0 := by decide
  omega

end Identifiers

/-! ## Pages of conflict copies -/

section Conflicts

variable (base64 : Base64) (baseId : String)

/-- The conflict copies of a document, the newest first. -/
def conflictRows (database : Database) : List IndexRow :=
  newestFirst database fun row => conflictCandidate baseId row.1

/-- `Store::draft_conflicts_page`, as a reader of pages. -/
def conflictReader (limit : Nat) (database : Database) (cursor : Option String) :
    Except String (List Json × Option String) :=
  (draftConflictsPage base64 baseId cursor limit database).map fun page =>
    (page.items, page.nextCursor)

/-- A boundary which a cursor of the document can carry. -/
def ConflictBoundary (boundary : Nat ×ₗ String) : Prop :=
  (ofLex boundary).1 ≤ I64_MAX ∧ ConflictCopy baseId (ofLex boundary).2

variable {base64 baseId} {database : Database} {limit : Nat}

theorem ConflictBoundary.admissible {boundary : Nat ×ₗ String}
    (copy : ConflictBoundary baseId boundary) (valid : validWritingDraftBase baseId = true) :
    Admissible boundary :=
  ⟨copy.1, (copy.2.admissible valid).1, (copy.2.admissible valid).2⟩

theorem conflictCopy_of_mem (valid : validWritingDraftBase baseId = true) {row : IndexRow}
    (listed : row ∈ conflictRows baseId database) :
    row.1.1 = "ai_draft" ∧ ConflictCopy baseId row.1.2 :=
  conflictCopy_of_candidate valid (mem_newestFirst.mp listed).2

theorem decreasing_conflictRows (valid : validWritingDraftBase baseId = true) :
    Decreasing sortKey (conflictRows baseId database) :=
  decreasing_newestFirst fun _ candidate => (conflictCopy_of_candidate valid candidate).1

/-- One page of the conflict copies, from the first one on or from a boundary on. -/
theorem draftConflictsPage_eq (lawful : base64.Lawful)
    (valid : validWritingDraftBase baseId = true) (admittedLimit : 1 ≤ limit ∧ limit ≤ 100)
    {boundary : Option (Nat ×ₗ String)} (admitted : ∀ last ∈ boundary, ConflictBoundary baseId last) :
    draftConflictsPage base64 baseId (boundary.map (cursorOf base64)) limit database =
      .ok
        { items := ((selected sortKey (conflictRows baseId database) limit boundary).take
            limit).map conflictItem
          nextCursor := (nextBoundary sortKey (conflictRows baseId database) limit boundary).map
            (cursorOf base64)
          total := (conflictRows baseId database).length
          corruptCount := (database.corruptObjects.keys.filter (conflictCandidate baseId)).length
        } := by
  have admissible : ∀ last ∈ boundary, Admissible last :=
    fun last member => (admitted last member).admissible valid
  have checked : checkLimit limit = .ok () := by
    rw [checkLimit, refuseIf_eq_ok]
    omega
  have sameDocument : checkConflictCursor baseId (boundary.map ofLex) = .ok () := by
    cases boundary with
    | none => rfl
    | some last =>
        obtain ⟨fits, copy⟩ := admitted last rfl
        rw [Option.map_some, checkConflictCursor, refuseIf_eq_ok, not_or, Nat.not_lt]
        exact ⟨by rw [copy.valid valid]; exact Bool.noConfusion, fits⟩
  refine refuseIf_bind_eq_ok.mpr ⟨by rw [valid]; exact Bool.noConfusion, ?_⟩
  refine bind_eq_ok.mpr ⟨(), checked, ?_⟩
  refine bind_eq_ok.mpr ⟨_, decodeCursors_cursorOf lawful admissible, ?_⟩
  refine bind_eq_ok.mpr ⟨(), sameDocument, ?_⟩
  have below : ((conflictRows baseId database).filter fun row =>
      afterCursor (boundary.map ofLex) row.2.updatedAt row.1.2).take (limit + 1) =
        selected sortKey (conflictRows baseId database) limit boundary := by
    rw [selected]
    exact congrArg _ (List.filter_congr fun row _ => afterCursor_eq_beyond admissible row)
  rw [conflictRows] at below
  simp only [below, nextCursor_selected]
  rfl

theorem reads_conflictReader (lawful : base64.Lawful)
    (valid : validWritingDraftBase baseId = true) (admittedLimit : 1 ≤ limit ∧ limit ≤ 100) :
    Reads sortKey (conflictRows baseId database) limit (ConflictBoundary baseId) (cursorOf base64)
      conflictItem (conflictReader base64 baseId limit database) := by
  intro boundary admitted
  rw [conflictReader, draftConflictsPage_eq lawful valid admittedLimit admitted]
  rfl

/-- A page is answered for a document, and its cursor is that of a conflict copy. -/
theorem draftConflictsPage_issues {cursor : Option String} {next : String} {page : SummaryPage}
    (answered : draftConflictsPage base64 baseId cursor limit database = .ok page)
    (issued : page.nextCursor = some next) :
    validWritingDraftBase baseId = true ∧ ∃ row ∈ conflictRows baseId database,
      next = encodeCursor base64 row.2.updatedAt row.1.2 := by
  obtain ⟨valid, answered⟩ := refuseIf_bind_eq_ok.mp answered
  obtain ⟨_, _, answered⟩ := bind_eq_ok.mp answered
  obtain ⟨_, _, answered⟩ := bind_eq_ok.mp answered
  obtain ⟨_, _, answered⟩ := bind_eq_ok.mp answered
  cases answered
  refine ⟨by simpa using valid, ?_⟩
  simp only [nextCursor] at issued
  split_ifs at issued
  obtain ⟨row, last, rfl⟩ := Option.map_eq_some_iff.mp issued
  have read := List.mem_of_mem_take (List.mem_of_mem_take (List.mem_of_getLast? last))
  exact ⟨row, (List.mem_filter.mp read).1, rfl⟩

/-- A cursor which was issued for another document is refused. -/
theorem draftConflictsPage_refuses (lawful : base64.Lawful) {other : String} {id : String}
    {updatedAt : Nat} (different : other ≠ baseId) (fits : updatedAt ≤ I64_MAX)
    (validOther : validWritingDraftBase other = true) (copy : ConflictCopy other id) :
    ∃ error, draftConflictsPage base64 baseId (some (encodeCursor base64 updatedAt id)) limit
      database = .error error := by
  cases answered : draftConflictsPage base64 baseId (some (encodeCursor base64 updatedAt id)) limit
      database with
  | error error => exact ⟨error, rfl⟩
  | ok page =>
      obtain ⟨valid, answered⟩ := refuseIf_bind_eq_ok.mp answered
      obtain ⟨_, _, answered⟩ := bind_eq_ok.mp answered
      obtain ⟨decoded, decodes, answered⟩ := bind_eq_ok.mp answered
      obtain ⟨_, checked, _⟩ := bind_eq_ok.mp answered
      have boundary : ∀ last ∈ some (toLex (updatedAt, id)), Admissible last := by
        rintro _ ⟨⟩
        exact ⟨fits, (copy.admissible validOther).1, (copy.admissible validOther).2⟩
      cases (decodeCursors_cursorOf lawful boundary).symm.trans decodes
      obtain ⟨passes, _⟩ := not_or.mp (refuseIf_eq_ok.mp checked)
      have mine := conflictCopy_of_valid (by simpa using valid) (Bool.eq_true_of_not_eq_false passes)
      exact absurd (copy.unique mine) different

end Conflicts

end LawyerAssistance.Storage

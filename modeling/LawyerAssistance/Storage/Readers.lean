import LawyerAssistance.Storage.Migration

/-!
# Readers which quarantine

`get` and `raw` read a row under the lock, open it without the lock, and take the lock
again to quarantine an object whose body does not open or decode. Between the two, a
writer may store another body.
-/

namespace LawyerAssistance.Storage

/-- Where a call of `get` or `raw` stands. -/
inductive Reader where
  | idle
  /-- The object was not quarantined. -/
  | admitted (key : Key) (decodes : Bool)
  /-- The body was read, and does not open or decode. -/
  | damaged (key : Key) (body : Octets) (code : String)

/-- The tables, and the readers beside them. -/
structure ReadSession where
  database : Database
  readers : Nat → Reader

/-- One critical section of a reader or a writer. -/
inductive ReadEvent (dpapi : Dpapi) where
  | start (reader : Nat) (key : Key) (decodes : Bool)
  | read (reader : Nat)
  | mark (reader accepted now : Nat)
  | put (accepted : Nat) (encodings : List (Encoding dpapi))
  | delete (accepted : Nat) (key : Key)

section Model

variable (host : Host) (accepts : String → Octets → Bool)

/-- The code with which a reader quarantines a body. `accepts` says whether the record type of a
kind decodes from some bytes; `raw` decodes nothing. -/
def examine (key : Key) (decodes : Bool) (body : Octets) : Option String :=
  match openBody host.dpapi key.1 key.2 body with
  | .error code => some code
  | .ok data => if decodes && !accepts key.1 data then some "object_json_invalid" else none

/-- A body which the writer of its kind may store. -/
def Encoding.valid {dpapi : Dpapi} : Encoding dpapi → Bool
  | .value _ _ key data => accepts key.1 data
  | .raw _ _ _ _ => true

/-- A reader goes on. -/
def ReadSession.setReader (session : ReadSession) (reader : Nat) (state : Reader) : ReadSession :=
  { session with readers := Function.update session.readers reader state }

/-- One critical section. Raw kinds are read by `raw` only, and a writer stores valid bodies. -/
def readStep (session : ReadSession) : ReadEvent host.dpapi → Option ReadSession
  | .start reader key decodes =>
      match session.readers reader with
      | .idle =>
          if decodes && isRawKind key.1 then none
          else if session.database.isQuarantined key then some session
          else some (session.setReader reader (.admitted key decodes))
      | _ => none
  | .read reader =>
      match session.readers reader with
      | .admitted key decodes =>
          match session.database.objects.lookup key with
          | none => some (session.setReader reader .idle)
          | some body =>
              match examine host accepts key decodes body with
              | none => some (session.setReader reader .idle)
              | some code => some (session.setReader reader (.damaged key body code))
      | _ => none
  | .mark reader accepted now =>
      match session.readers reader with
      | .damaged key _ code =>
          some (ReadSession.setReader
            { session with database := (quarantine key code now accepted session.database).2 }
            reader .idle)
      | _ => none
  | .put accepted encodings =>
      if encodings.all fun encoding => encoding.suits && encoding.valid accepts then
        some { session with database := (encodeAndPut host encodings accepted session.database).2 }
      else none
  | .delete accepted key =>
      some { session with database := (delete key accepted session.database).2 }

/-- Readers and writers as a machine. -/
def readMachine : Machine ReadSession (ReadEvent host.dpapi) := ⟨readStep host accepts⟩

/-- A body which opens and decodes. -/
def Good (key : Key) (body : Octets) : Prop :=
  ∃ data, openBody host.dpapi key.1 key.2 body = .ok data ∧
    (isRawKind key.1 = false → accepts key.1 data = true)

/-- No object with a good body is marked corrupt. -/
def GoodVisible (database : Database) : Prop :=
  ∀ key body, database.objects.lookup key = some body → Good host accepts key body →
    database.corruptObjects.lookup key = none

/-- No reader has started, and no good body is marked. -/
structure ReadSession.Starts (session : ReadSession) : Prop where
  idle : ∀ reader, session.readers reader = .idle
  visible : GoodVisible host accepts session.database

end Model

/-! ## When a mark is committed -/

/-- The mark of a quarantine is committed: the time fits, and all six statements are accepted. -/
def MarkCommits (accepted now : Nat) : Prop := now ≤ I64_MAX ∧ 6 ≤ accepted

theorem quarantine_of_commits {accepted now : Nat} (commits : MarkCommits accepted now) (key : Key)
    (code : String) (database : Database) :
    (quarantine key code now accepted database).2 = database.quarantined key ⟨code, now⟩ := by
  obtain ⟨fits, enough⟩ := commits
  obtain ⟨more, rfl⟩ := Nat.exists_eq_add_of_le' enough
  have checked : toI64 now = .ok () := toI64_eq_ok.mpr fits
  simp only [quarantine, Sql.transaction, quarantineTx, checked]
  rfl

theorem quarantine_of_fails {accepted now : Nat} (fails : ¬ MarkCommits accepted now) (key : Key)
    (code : String) (database : Database) :
    (quarantine key code now accepted database).2 = database := by
  by_cases fits : now ≤ I64_MAX
  · have checked : toI64 now = .ok () := toI64_eq_ok.mpr fits
    have few : accepted < 6 := by
      rw [MarkCommits, not_and] at fails
      exact Nat.not_le.mp (fails fits)
    simp only [quarantine, Sql.transaction, quarantineTx, checked]
    rcases accepted with _ | _ | _ | _ | _ | _ | accepted
    all_goals first | rfl | omega
  · have refused : toI64 now = .error "storage_metadata_invalid" := by
      rw [toI64, refuseIf, if_pos (Nat.not_le.mp fits)]
    simp only [quarantine, Sql.transaction, quarantineTx, refused]
    cases accepted <;> rfl

/-! ## What readers hold -/

section Holds

variable {host : Host} {accepts : String → Octets → Bool}

/-- What a reader found damaged is no good body. A good body may have replaced it. -/
def Reader.Sound (host : Host) (accepts : String → Octets → Bool) (database : Database) :
    Reader → Prop
  | .idle => True
  | .admitted key decodes => decodes = true → isRawKind key.1 = false
  | .damaged key body _ => ¬ Good host accepts key body ∧
      ∀ stored, database.objects.lookup key = some stored →
        stored = body ∨ Good host accepts key stored

/-- Every reader is sound, and no good body is marked. -/
structure ReadSession.Sound (host : Host) (accepts : String → Octets → Bool)
    (session : ReadSession) : Prop where
  readers : ∀ reader, (session.readers reader).Sound host accepts session.database
  visible : GoodVisible host accepts session.database

/-- Between two states of the tables bodies are kept, removed or replaced by good ones. -/
def Renews (host : Host) (accepts : String → Octets → Bool) (before after : Database) : Prop :=
  ∀ key stored, after.objects.lookup key = some stored →
    before.objects.lookup key = some stored ∨ Good host accepts key stored

theorem Renews.refl (database : Database) : Renews host accepts database database :=
  fun _ _ stored => .inl stored

theorem Renews.trans {first second third : Database} (before : Renews host accepts first second)
    (after : Renews host accepts second third) : Renews host accepts first third := by
  intro key stored found
  obtain middle | good := after key stored found
  · exact before key stored middle
  · exact .inr good

/-- A reader stays sound while bodies are renewed. -/
theorem Reader.Sound.renew {before after : Database} {reader : Reader}
    (sound : reader.Sound host accepts before) (renews : Renews host accepts before after) :
    reader.Sound host accepts after := by
  cases reader with
  | idle => trivial
  | admitted key decodes => exact sound
  | damaged key body code =>
      refine ⟨sound.1, fun stored found => ?_⟩
      obtain same | good := renews key stored found
      · exact sound.2 stored same
      · exact .inr good

/-- A body which a reader refuses is not good. -/
theorem not_good_of_examine {key : Key} {decodes : Bool} {body : Octets} {code : String}
    (plain : decodes = true → isRawKind key.1 = false)
    (refused : examine host accepts key decodes body = some code) :
    ¬ Good host accepts key body := by
  rintro ⟨data, opened, reads⟩
  unfold examine at refused
  rw [opened] at refused
  simp only at refused
  split_ifs at refused with rejects
  rw [Bool.and_eq_true, Bool.not_eq_true'] at rejects
  have accepted := reads (plain rejects.1)
  rw [rejects.2] at accepted
  cases accepted

/-- A row of a valid encoding has a good body. -/
theorem good_of_row (authentic : host.dpapi.Authentic) {encoding : Encoding host.dpapi}
    {row : StoredRow} (allowed : (encoding.suits && encoding.valid accepts) = true)
    (encodes : encoding.row host.serde = .ok row) : Good host accepts row.key row.body := by
  rw [Bool.and_eq_true] at allowed
  cases encoding with
  | value salts clock key data =>
      obtain ⟨value, _, encodes⟩ := bind_eq_ok.mp encodes
      obtain ⟨body, closed, encodes⟩ := bind_eq_ok.mp encodes
      obtain ⟨text, _, encodes⟩ := bind_eq_ok.mp encodes
      obtain ⟨summary, _, encodes⟩ := bind_eq_ok.mp encodes
      cases encodes
      exact ⟨data, openBody_sealBody authentic closed, fun _ => allowed.2⟩
  | raw salts clock key bytes =>
      obtain ⟨body, closed, encodes⟩ := bind_eq_ok.mp encodes
      cases encodes
      refine ⟨bytes, openBody_sealBody authentic closed, fun plain => ?_⟩
      have raw := allowed.1
      simp only [Encoding.suits] at raw
      rw [plain] at raw
      cases raw

/-- A good row is visible, and the other objects are left alone. -/
theorem GoodVisible.written {database : Database} {row : StoredRow}
    (visible : GoodVisible host accepts database) (good : Good host accepts row.key row.body) :
    GoodVisible host accepts (database.written row) ∧
      Renews host accepts database (database.written row) := by
  constructor
  · intro key body stored opens
    by_cases same : key = row.key
    · subst same
      exact AList.lookup_erase _ _
    · rw [Database.written, AList.lookup_insert_ne same] at stored
      rw [Database.written, AList.lookup_erase_ne same]
      exact visible key body stored opens
  · intro key body stored
    by_cases same : key = row.key
    · subst same
      rw [Database.written, AList.lookup_insert] at stored
      cases stored
      exact .inr good
    · rw [Database.written, AList.lookup_insert_ne same] at stored
      exact .inl stored

/-- A batch of good rows is visible, and the other objects are left alone. -/
theorem GoodVisible.foldl_written {database : Database} {rows : List StoredRow}
    (visible : GoodVisible host accepts database)
    (good : ∀ row ∈ rows, Good host accepts row.key row.body) :
    GoodVisible host accepts (rows.foldl Database.written database) ∧
      Renews host accepts database (rows.foldl Database.written database) := by
  induction rows generalizing database with
  | nil => exact ⟨visible, .refl _⟩
  | cons row rest inductionHypothesis =>
      rw [List.forall_mem_cons] at good
      obtain ⟨here, renews⟩ := visible.written good.1
      obtain ⟨later, rest⟩ := inductionHypothesis here good.2
      exact ⟨later, renews.trans rest⟩

/-- A deleted object is not visible. -/
theorem GoodVisible.deleted {database : Database} (key : Key)
    (visible : GoodVisible host accepts database) :
    GoodVisible host accepts (database.deleted key) ∧
      Renews host accepts database (database.deleted key) := by
  constructor
  · intro other body stored opens
    by_cases same : other = key
    · subst same
      exact AList.lookup_erase _ _
    · rw [Database.deleted, AList.lookup_erase_ne same] at stored ⊢
      exact visible other body stored opens
  · intro other body stored
    by_cases same : other = key
    · subst same
      rw [Database.deleted, AList.lookup_erase] at stored
      cases stored
    · rw [Database.deleted, AList.lookup_erase_ne same] at stored
      exact .inl stored

/-- A mark hides exactly the good body of its object. -/
theorem goodVisible_quarantined {database : Database} {key : Key} {mark : CorruptObject}
    (visible : GoodVisible host accepts database) :
    GoodVisible host accepts (database.quarantined key mark) ↔
      ∀ stored, database.objects.lookup key = some stored → ¬ Good host accepts key stored := by
  constructor
  · intro after stored found good
    have unmarked := after key stored found good
    rw [Database.quarantined, AList.lookup_insert] at unmarked
    cases unmarked
  · intro bad other body stored good
    by_cases same : other = key
    · subst same
      exact absurd good (bad body stored)
    · rw [Database.quarantined, AList.lookup_insert_ne same]
      exact visible other body stored good

end Holds

/-! ## Runs -/

section Runs

variable {host : Host} {accepts : String → Octets → Bool}

/-- No object whose body opens and decodes is marked after the step. -/
def HidesNothing (host : Host) (accepts : String → Octets → Bool) (_ : ReadSession)
    (_ : ReadEvent host.dpapi) (next : ReadSession) : Prop :=
  GoodVisible host accepts next.database

/-- A committed mark finds the object gone, or with the very bytes which the reader read. -/
def MarksUnmoved (host : Host) (session : ReadSession) (event : ReadEvent host.dpapi)
    (_ : ReadSession) : Prop :=
  ∀ reader accepted now key body code, event = .mark reader accepted now →
    session.readers reader = .damaged key body code → MarkCommits accepted now →
      ∀ stored, session.database.objects.lookup key = some stored → stored = body

theorem ReadSession.Starts.sound {session : ReadSession} (starts : session.Starts host accepts) :
    session.Sound host accepts := by
  refine ⟨fun reader => ?_, starts.visible⟩
  rw [starts.idle reader]
  trivial

/-- One reader goes on, soundly. -/
theorem ReadSession.Sound.setReader {session : ReadSession} (sound : session.Sound host accepts)
    {reader : Nat} {state : Reader} (here : state.Sound host accepts session.database) :
    (session.setReader reader state).Sound host accepts := by
  refine ⟨fun other => ?_, sound.visible⟩
  by_cases same : other = reader
  · subst same
    simpa [ReadSession.setReader] using here
  · simpa [ReadSession.setReader, same] using sound.readers other

theorem ReadSession.Sound.renew {session : ReadSession} (sound : session.Sound host accepts)
    {database : Database} (visible : GoodVisible host accepts database)
    (renews : Renews host accepts session.database database) :
    ({ session with database := database } : ReadSession).Sound host accepts :=
  ⟨fun reader => (sound.readers reader).renew renews, visible⟩

/-- A step hides no good body exactly when its mark, if any, finds what was read. -/
theorem readStep_sound (authentic : host.dpapi.Authentic) {session next : ReadSession}
    {event : ReadEvent host.dpapi} (sound : session.Sound host accepts)
    (taken : (readMachine host accepts).step session event = some next) :
    (HidesNothing host accepts session event next ↔ MarksUnmoved host session event next) ∧
      (MarksUnmoved host session event next → next.Sound host accepts) := by
  -- a step without a mark keeps everything sound
  have quiet : (∀ reader accepted now, event ≠ .mark reader accepted now) →
      next.Sound host accepts →
      (HidesNothing host accepts session event next ↔ MarksUnmoved host session event next) ∧
        (MarksUnmoved host session event next → next.Sound host accepts) := by
    intro noMark kept
    have unmoved : MarksUnmoved host session event next :=
      fun reader accepted now _ _ _ marks => absurd marks (noMark reader accepted now)
    exact ⟨iff_of_true kept.visible unmoved, fun _ => kept⟩
  cases event with
  | start reader key decodes =>
      refine quiet (by simp) ?_
      simp only [readMachine, readStep] at taken
      split at taken
      · split_ifs at taken with wrong marked
        · cases taken
          exact sound
        · cases taken
          refine sound.setReader fun decoding => ?_
          subst decoding
          simpa using wrong
      · cases taken
  | read reader =>
      refine quiet (by simp) ?_
      simp only [readMachine, readStep] at taken
      split at taken
      · next key decodes admitted =>
          split at taken
          · cases taken
            exact sound.setReader trivial
          · next body stored =>
              split at taken
              · cases taken
                exact sound.setReader trivial
              · next code refused =>
                  cases taken
                  have plain := sound.readers reader
                  rw [admitted] at plain
                  refine sound.setReader ⟨not_good_of_examine plain refused, fun other found => ?_⟩
                  exact .inl (Option.some.inj (found.symm.trans stored))
      · cases taken
  | put accepted encodings =>
      refine quiet (by simp) ?_
      simp only [readMachine, readStep] at taken
      split_ifs at taken with allowed
      cases taken
      obtain ⟨error, failed⟩ | ⟨rows, encodes, done⟩ :=
        encodeAndPut_cases encodings accepted session.database
      · rw [failed]
        exact sound.renew sound.visible (.refl _)
      · rw [done]
        have good : ∀ row ∈ rows, Good host accepts row.key row.body :=
          mapM_row_forall encodes fun encoding member row made =>
            good_of_row authentic (List.all_eq_true.mp allowed encoding member) made
        obtain ⟨visible, renews⟩ := sound.visible.foldl_written good
        exact sound.renew visible renews
  | delete accepted key =>
      refine quiet (by simp) ?_
      simp only [readMachine, readStep] at taken
      cases taken
      obtain unchanged | done := delete_cases key accepted session.database
      · rw [unchanged]
        exact sound.renew sound.visible (.refl _)
      · rw [done]
        obtain ⟨visible, renews⟩ := sound.visible.deleted key
        exact sound.renew visible renews
  | mark reader accepted now =>
      simp only [readMachine, readStep] at taken
      split at taken
      · next key body code damaged =>
          cases taken
          have held := sound.readers reader
          rw [damaged] at held
          obtain ⟨bad, current⟩ := held
          by_cases commits : MarkCommits accepted now
          · rw [quarantine_of_commits commits]
            have hides : HidesNothing host accepts session (.mark reader accepted now)
                (ReadSession.setReader { session with
                  database := session.database.quarantined key ⟨code, now⟩ } reader .idle) ↔
                ∀ stored, session.database.objects.lookup key = some stored →
                  ¬ Good host accepts key stored := goodVisible_quarantined sound.visible
            -- only a good body differs from the one which was read
            have unmoved : MarksUnmoved host session (.mark reader accepted now)
                (ReadSession.setReader { session with
                  database := session.database.quarantined key ⟨code, now⟩ } reader .idle) ↔
                ∀ stored, session.database.objects.lookup key = some stored → stored = body := by
              constructor
              · exact fun finds => finds reader accepted now key body code rfl damaged commits
              · rintro same _ _ _ _ _ _ marks damaged' _
                cases marks
                cases damaged.symm.trans damaged'
                exact same
            have agree : (∀ stored, session.database.objects.lookup key = some stored →
                ¬ Good host accepts key stored) ↔
                ∀ stored, session.database.objects.lookup key = some stored → stored = body := by
              constructor
              · exact fun none stored found => (current stored found).resolve_right (none stored found)
              · exact fun same stored found good => bad (same stored found ▸ good)
            rw [hides, unmoved, agree]
            refine ⟨Iff.rfl, fun same => ?_⟩
            have renewed := sound.renew ((@goodVisible_quarantined host accepts _ key
              ⟨code, now⟩ sound.visible).mpr (agree.mpr same)) fun _ _ stored => .inl stored
            exact renewed.setReader trivial
          · rw [quarantine_of_fails commits]
            have unmoved : MarksUnmoved host session (.mark reader accepted now)
                (ReadSession.setReader session reader .idle) := by
              rintro _ _ _ _ _ _ marks _ commits'
              cases marks
              exact absurd commits' commits
            have kept : (ReadSession.setReader session reader .idle).Sound host accepts :=
              sound.setReader trivial
            exact ⟨iff_of_true kept.visible unmoved, fun _ => kept⟩
      · cases taken

/-- Readers and writers in any order: after every step no object whose body opens and decodes is
marked corrupt, if and only if every committed mark finds its object gone or with the bytes
which were read. -/
theorem marks_hide_no_good_body (authentic : host.dpapi.Authentic) {session : ReadSession}
    (starts : session.Starts host accepts) (events : List (ReadEvent host.dpapi)) :
    (readMachine host accepts).Along (HidesNothing host accepts) session events ↔
      (readMachine host accepts).Along (MarksUnmoved host) session events :=
  @Machine.along_congr _ _ (readMachine host accepts) (fun state => state.Sound host accepts)
    (HidesNothing host accepts) (MarksUnmoved host)
    (fun sound taken => readStep_sound authentic sound taken) session events starts.sound

end Runs

/-! ## A body which is replaced while a reader holds the old bytes -/

/-- A workspace whose only object, a task, was damaged on the disk. -/
def damagedTask : ReadSession where
  database := { Database.created with objects := AList.insert ("task", "t_1") [0] ∅ }
  readers _ := .idle

/-- Every record of the example is `null`. -/
def acceptsNull (_ : String) (data : Octets) : Bool := data = utf8 "null"

theorem damagedTask_starts : damagedTask.Starts markingHost acceptsNull :=
  ⟨fun _ => rfl, fun _ _ _ _ => rfl⟩

/-- A reader reads the damaged bytes, a writer replaces them, and the reader marks the object. -/
def replacedWhileRead : List (ReadEvent marker) :=
  [.start 0 ("task", "t_1") true, .read 0,
    .put 20 [.value noSalts ⟨1, 1⟩ ("task", "t_1") (utf8 "null")], .mark 0 6 2]

/-- The good body is marked corrupt on account of the older bytes. -/
theorem mark_hides_replaced_body :
    damagedTask.Starts markingHost acceptsNull ∧ ∃ final,
      (readMachine markingHost acceptsNull).run damagedTask replacedWhileRead = some final ∧
      ¬ GoodVisible markingHost acceptsNull final.database := by
  have facts : ((readMachine markingHost acceptsNull).run damagedTask replacedWhileRead).map
      (fun final => (((final.database.objects.lookup ("task", "t_1")).bind fun body =>
          (openBody marker "task" "t_1" body).toOption),
        (final.database.corruptObjects.lookup ("task", "t_1")).isSome)) =
      some (some (utf8 "null"), true) := by decide
  obtain ⟨final, ran, parts⟩ := Option.map_eq_some_iff.mp facts
  obtain ⟨stored, marked⟩ := Prod.mk.inj parts
  obtain ⟨body, found, opened⟩ := Option.bind_eq_some_iff.mp stored
  refine ⟨damagedTask_starts, final, ran, fun visible => ?_⟩
  have good : Good markingHost acceptsNull ("task", "t_1") body := by
    cases result : openBody marker "task" "t_1" body with
    | error error => simp [result, Except.toOption] at opened
    | ok data =>
        rw [result] at opened
        cases opened
        exact ⟨_, result, fun _ => by decide⟩
  rw [visible _ body found good] at marked
  cases marked

/-- A reader which finds the bytes that it read hides nothing. -/
theorem marks_hide_no_good_body_unmoved :
    (readMachine markingHost acceptsNull).Along (HidesNothing markingHost acceptsNull) damagedTask
      [.start 0 ("task", "t_1") true, .read 0, .mark 0 6 2] := by
  refine (marks_hide_no_good_body marker_authentic damagedTask_starts _).mpr ?_
  let admitted := damagedTask.setReader 0 (.admitted ("task", "t_1") true)
  let damaged := admitted.setReader 0 (.damaged ("task", "t_1") [0] "encrypted_object_invalid")
  have starts : (readMachine markingHost acceptsNull).step damagedTask
      (.start 0 ("task", "t_1") true) = some admitted := rfl
  have reads : (readMachine markingHost acceptsNull).step admitted (.read 0) = some damaged := rfl
  rintro next taken
  cases starts.symm.trans taken
  refine ⟨fun _ _ _ _ _ _ marks => (nomatch marks), fun next taken => ?_⟩
  cases reads.symm.trans taken
  refine ⟨fun _ _ _ _ _ _ marks => (nomatch marks), fun next taken => ⟨?_, trivial⟩⟩
  rintro _ _ _ _ _ _ marks found _ stored present
  cases marks
  cases found
  cases present
  rfl

end LawyerAssistance.Storage

import LawyerAssistance.AiRuns.System

/-!
# Drafts of writing forms

A draft is saved and deleted by clients which name the revision that they expect. A version is
one successful save. While no draft is created again under an identifier whose draft was
deleted, the revisions of one draft are never used twice, so that a save overwrites exactly the
version which its caller read. A deletion starts the revisions again, and then an old revision
can name a version which its caller never saw.
-/

namespace LawyerAssistance.Drafts

open AiRuns

/-! ## Operations -/

/-- `WritingDraftContent`. -/
structure WritingDraftContent where
  documentType : String := ""
  prompt : String := ""
  requirements : String := ""
  caseDate : String := ""
  providerId : Option String := none
  model : Option String := none
  materials : List AiMaterialReference := []
  attachmentIds : List String := []
  contextRanges : List AiContextRangeSelection := []
  runId : Option String := none
  runRevision : Option Nat := none
  content : String := ""
  dirty : Bool := false

/-- `AiDraft`. -/
structure AiDraft where
  id : String
  revision : Nat
  content : WritingDraftContent
  updatedAt : Nat

/-- What the operations on drafts ask of the rest of the workspace. -/
structure DraftServices extends Services where
  /-- Whether the stored body of a draft opens. -/
  opensDraft : String → Except String Unit
  /-- Whether the storage commits a transaction. -/
  commits : Except String Unit

/-- `valid_draft_id`. -/
def validDraftId (id : String) : Bool :=
  id ≠ "" && decide (id.utf8ByteSize ≤ 80) &&
    id.toList.all fun character => character.isAlphanum || character == '-' || character == '_'

/-- A file name or a path is no identifier of a run. -/
def isPathText (value : String) : Bool :=
  value.toList.any fun character => character ∈ ['/', '\\', ':', '\x00']

section Operations

variable (services : DraftServices) (now : Nat)

/-- `writing_draft_content`. A value which is no form is `none`. -/
def writingDraftContent (value : Option WritingDraftContent) :
    Except String WritingDraftContent := do
  let content ← presentOr value "invalid_ai_request"
  refuseIf (200 < content.documentType.utf8ByteSize ∨ 128 * 1024 < content.prompt.utf8ByteSize ∨
      32 * 1024 < content.requirements.utf8ByteSize ∨ 64 < content.caseDate.utf8ByteSize ∨
      2 * 1024 * 1024 < content.content.utf8ByteSize ∨
      content.providerId.any (fun value => 200 < value.utf8ByteSize) = true ∨
      content.model.any (fun value => 200 < value.utf8ByteSize) = true ∨
      content.runId.any (fun value =>
        value == "" || decide (200 < value.utf8ByteSize) || isPathText value) = true ∨
      ∃ text ∈ [content.documentType, content.prompt, content.requirements, content.caseDate,
        content.content], '\x00' ∈ text.toList)
    "invalid_ai_request"
  checkContextShape services.toServices content.materials content.attachmentIds
  let contextRanges ← canonicalContextRangesMetadata services.toServices content.materials
    content.attachmentIds content.contextRanges
  pure { content with contextRanges }

/-- `ai_draft`, for the object which is stored under the identifier. -/
def aiDraft (stored : Option AiDraft) (id : String) : Except String AiDraft := do
  refuseIf (validDraftId id = false) "invalid_ai_request"
  let draft ← presentOr stored "not_found"
  services.opensDraft id
  pure draft

/-- `Store::maybe` of a draft. -/
def maybeDraft (stored : Option AiDraft) (id : String) : Except String (Option AiDraft) :=
  match stored with
  | none => .ok none
  | some draft => do
      services.opensDraft id
      pure (some draft)

/-- The revision of a draft which is saved. -/
def nextRevision (existing : Option AiDraft) (expectedRevision : Nat) : Except String Nat :=
  match existing with
  | some existing =>
      if existing.revision = expectedRevision then checkedAdd existing.revision
      else .error "revision_conflict"
  | none => if expectedRevision = 0 then .ok 1 else .error "revision_conflict"

/-- `save_ai_draft`. -/
def saveAiDraft (stored : Option AiDraft) (id : String) (expectedRevision : Nat)
    (value : Option WritingDraftContent) : Except String AiDraft := do
  refuseIf (validDraftId id = false) "invalid_ai_request"
  let content ← writingDraftContent services value
  services.gate
  let existing ← maybeDraft services stored id
  let revision ← nextRevision existing expectedRevision
  services.commits
  pure ⟨id, revision, content, now⟩

/-- `delete_ai_draft`. -/
def deleteAiDraft (stored : Option AiDraft) (id : String) (expectedRevision : Nat) :
    Except String Unit := do
  refuseIf (validDraftId id = false) "invalid_ai_request"
  services.gate
  let draft ← presentOr stored "not_found"
  services.opensDraft id
  refuseIf (draft.revision ≠ expectedRevision) "revision_conflict"
  services.commits

end Operations

/-! ## Clients -/

/-- One successful save: the draft, and the number of saves before it. -/
structure Version where
  draft : AiDraft
  stamp : Nat

/-- What a client asks for. -/
inductive Label where
  | read (client id : String)
  | save (client id : String) (expectedRevision : Nat) (value : Option WritingDraftContent)
  | delete (client id : String) (expectedRevision : Nat)

/-- One request, with the answers of the services. -/
structure Event where
  label : Label
  services : DraftServices
  now : Nat

/-- The drafts, every version which was ever written, the newest first, and what each client has
read or written. No operation reads the latter two. -/
structure World where
  drafts : Table Version
  written : List Version
  observed : List (String × Version)

namespace World

/-- A workspace without drafts. -/
def initial : World := ⟨∅, [], []⟩

/-- The stored draft of an identifier. -/
def stored (world : World) (id : String) : Option AiDraft :=
  (world.drafts.get id).map Version.draft

/-- The answer to a save. -/
def saved (world : World) (event : Event) (id : String) (expectedRevision : Nat)
    (value : Option WritingDraftContent) : Except String AiDraft :=
  saveAiDraft event.services event.now (world.stored id) id expectedRevision value

/-- The world after a request. A request which fails changes nothing. -/
def next (world : World) (event : Event) : World :=
  match event.label with
  | .read client id =>
      match world.drafts.get id, aiDraft event.services (world.stored id) id with
      | some version, .ok _ => { world with observed := (client, version) :: world.observed }
      | _, _ => world
  | .save client id expectedRevision value =>
      match world.saved event id expectedRevision value with
      | .error _ => world
      | .ok draft =>
          let version := ⟨draft, world.written.length⟩
          { drafts := world.drafts.put id version
            written := version :: world.written
            observed := (client, version) :: world.observed }
  | .delete _ id expectedRevision =>
      match deleteAiDraft event.services (world.stored id) id expectedRevision with
      | .error _ => world
      | .ok _ => { world with drafts := world.drafts.remove id }

/-- A client saw a version of a draft at a revision. -/
def Saw (world : World) (client id : String) (revision : Nat) (version : Version) : Prop :=
  (client, version) ∈ world.observed ∧ version.draft.id = id ∧ version.draft.revision = revision

end World

/-- The drafts as a machine of requests. -/
def drafts : Machine World Event where
  step world event := some (world.next event)

/-! ## Revisions -/

/-- A save names a revision which its caller saw, or creates a draft under an identifier under
which none was written before. -/
def Expects (world : World) (event : Event) : Prop :=
  ∀ client id expectedRevision value, event.label = .save client id expectedRevision value →
    (expectedRevision ≠ 0 → ∃ version, world.Saw client id expectedRevision version) ∧
    (expectedRevision = 0 → ∀ version ∈ world.written, version.draft.id ≠ id)

/-- The revisions of a draft are used once, and the stored one is the newest. -/
structure World.Sound (world : World) : Prop where
  once : ∀ first ∈ world.written, ∀ second ∈ world.written, first.draft.id = second.draft.id →
    first.draft.revision = second.draft.revision → first = second
  newest : ∀ {id version}, world.drafts.get id = some version →
    version ∈ world.written ∧ version.draft.id = id ∧
      ∀ earlier ∈ world.written, earlier.draft.id = id →
        earlier.draft.revision ≤ version.draft.revision
  observed : ∀ {client version}, (client, version) ∈ world.observed → version ∈ world.written

section Steps

variable {world : World} {event : Event}

theorem sound_initial : World.initial.Sound where
  once _ member := nomatch member
  newest found := nomatch found
  observed member := nomatch member

/-- What a save which succeeds writes. -/
theorem saveAiDraft_eq_ok {services : DraftServices} {now : Nat} {stored : Option AiDraft}
    {id : String} {expectedRevision : Nat} {value : Option WritingDraftContent} {draft : AiDraft}
    (done : saveAiDraft services now stored id expectedRevision value = .ok draft) :
    draft.id = id ∧
      ((∃ existing, stored = some existing ∧ existing.revision = expectedRevision ∧
          draft.revision = expectedRevision + 1) ∨
        stored = none ∧ expectedRevision = 0 ∧ draft.revision = 1) := by
  obtain ⟨_, done⟩ := refuseIf_bind_eq_ok.mp done
  obtain ⟨content, _, done⟩ := bind_eq_ok.mp done
  obtain ⟨_, _, done⟩ := bind_eq_ok.mp done
  obtain ⟨existing, opened, done⟩ := bind_eq_ok.mp done
  obtain ⟨revision, counted, done⟩ := bind_eq_ok.mp done
  obtain ⟨_, _, done⟩ := bind_eq_ok.mp done
  cases done
  refine ⟨rfl, ?_⟩
  cases stored with
  | none =>
      cases opened
      rw [nextRevision] at counted
      split_ifs at counted with zero
      cases counted
      exact .inr ⟨rfl, zero, rfl⟩
  | some old =>
      obtain ⟨_, _, opened⟩ := bind_eq_ok.mp opened
      cases opened
      rw [nextRevision, checkedAdd] at counted
      split_ifs at counted with same
      cases counted
      exact .inl ⟨old, rfl, same, by rw [same]⟩

/-- What a request changes: a client saw a stored version, a version was written, or a draft was
removed. -/
theorem next_cases (world : World) (event : Event) :
    world.next event = world ∨
    (∃ client id version, world.drafts.get id = some version ∧
      world.next event = { world with observed := (client, version) :: world.observed }) ∨
    (∃ client id expectedRevision value draft,
      event.label = .save client id expectedRevision value ∧
      world.saved event id expectedRevision value = .ok draft ∧
      world.next event =
        { drafts := world.drafts.put id ⟨draft, world.written.length⟩
          written := ⟨draft, world.written.length⟩ :: world.written
          observed := (client, ⟨draft, world.written.length⟩) :: world.observed }) ∨
    ∃ id, world.next event = { world with drafts := world.drafts.remove id } := by
  obtain ⟨label, services, now⟩ := event
  cases label with
  | read client id =>
      dsimp only [World.next]
      split
      · next version _ found _ => exact .inr (.inl ⟨client, id, version, found, rfl⟩)
      · exact .inl rfl
  | save client id expectedRevision value =>
      dsimp only [World.next]
      split
      · exact .inl rfl
      · next draft done =>
          exact .inr (.inr (.inl ⟨client, id, expectedRevision, value, draft, rfl, done, rfl⟩))
  | delete client id expectedRevision =>
      dsimp only [World.next]
      split
      · exact .inl rfl
      · exact .inr (.inr (.inr ⟨id, rfl⟩))

/-- The revision of a version which is written is newer than those before it. -/
theorem World.Sound.newer (sound : world.Sound) (expects : Expects world event)
    {client id : String} {expectedRevision : Nat} {value : Option WritingDraftContent}
    {draft : AiDraft} (label : event.label = .save client id expectedRevision value)
    (done : world.saved event id expectedRevision value = .ok draft) :
    draft.id = id ∧ ∀ earlier ∈ world.written, earlier.draft.id = id →
      earlier.draft.revision < draft.revision := by
  obtain ⟨named, ⟨existing, stored, same, revision⟩ | ⟨_, zero, _⟩⟩ := saveAiDraft_eq_ok done
  · refine ⟨named, fun earlier member ofId => ?_⟩
    obtain ⟨version, found, rfl⟩ := Option.map_eq_some_iff.mp stored
    have bounded := (sound.newest found).2.2 earlier member ofId
    omega
  · refine ⟨named, fun earlier member ofId => ?_⟩
    exact absurd ofId ((expects _ _ _ _ label).2 zero earlier member)

/-- A request keeps the revisions in order. -/
theorem World.Sound.next (sound : world.Sound) (expects : Expects world event) :
    (world.next event).Sound := by
  obtain same | ⟨client, id, version, found, same⟩ |
    ⟨client, id, expectedRevision, value, draft, label, done, same⟩ | ⟨id, same⟩ :=
    next_cases world event
  · rw [same]
    exact sound
  · rw [same]
    refine ⟨sound.once, sound.newest, fun member => ?_⟩
    obtain here | before := List.mem_cons.mp member
    · cases here
      exact (sound.newest found).1
    · exact sound.observed before
  · rw [same]
    obtain ⟨named, newer⟩ := sound.newer expects label done
    refine ⟨?_, fun {other version} found => ?_, fun member => ?_⟩
    · intro first inFirst second inSecond ids revisions
      obtain rfl | before := List.mem_cons.mp inFirst
      · obtain rfl | before' := List.mem_cons.mp inSecond
        · rfl
        · exact absurd revisions (newer second before' (ids.symm.trans named)).ne'
      · obtain rfl | before' := List.mem_cons.mp inSecond
        · exact absurd revisions (newer first before (ids.trans named)).ne
        · exact sound.once first before second before' ids revisions
    · rw [Table.get_put] at found
      split_ifs at found with here
      · cases found
        refine ⟨List.mem_cons_self, named.trans here.symm, fun earlier member ofId => ?_⟩
        obtain rfl | before := List.mem_cons.mp member
        · exact le_rfl
        · exact (newer earlier before (ofId.trans here)).le
      · obtain ⟨inWritten, ofOther, bounded⟩ := sound.newest found
        refine ⟨List.mem_cons_of_mem _ inWritten, ofOther, fun earlier member ofId => ?_⟩
        obtain rfl | before := List.mem_cons.mp member
        · exact absurd (ofId.symm.trans named) here
        · exact bounded earlier before ofId
    · obtain here | before := List.mem_cons.mp member
      · cases here
        exact List.mem_cons_self
      · exact List.mem_cons_of_mem _ (sound.observed before)
  · rw [same]
    refine ⟨sound.once, fun {other version} found => ?_, sound.observed⟩
    rw [Table.get_remove] at found
    split_ifs at found
    exact sound.newest found

end Steps

section Runs

variable {final : World}

/-- A request under services which refuse nothing. -/
def Label.accepted (label : Label) : Event :=
  ⟨label, { Services.accepting .null with opensDraft := fun _ => .ok (), commits := .ok () }, 0⟩

/-- A form with a text. -/
def form (content : String) : Option WritingDraftContent := some { content }

end Runs

end LawyerAssistance.Drafts

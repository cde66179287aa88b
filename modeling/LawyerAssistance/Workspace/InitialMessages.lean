import LawyerAssistance.Workspace.Ownership
import LawyerAssistance.Workspace.Results

/-!
# Reading materials into a conversation

A conversation with a model reads materials and results outside the gate. Where a record
lacks its length or its format, the conversation fills it in and saves the copy which it
read, in a later critical section. A session is the service together with its readers.
-/

namespace LawyerAssistance.Workspace

open PrivacyText
open Program (current commit lift refuse)

/-- `context_format` of the source. -/
def contextFormat (name : String) : String :=
  if '.' ∈ name.toList ∧
      extension name ∈ ["txt", "md", "markdown", "docx", "pdf", "png", "jpg", "jpeg", "webp"] then
    extension name
  else
    "unknown"

/-- The record of a material lacks its length or its format. -/
def lacksMetadata (m : Material) : Bool :=
  m.sourceByteLen == 0 || m.sourceFormat == "" || m.sourceFormat == "unknown"

/-- The copy of a material which a reader saves. -/
def withMetadata (m : Material) (byteLen : Nat) : Material :=
  { m with sourceByteLen := byteLen, sourceFormat := contextFormat m.name }

/-- The copy of a result which a reader saves. -/
def withTextLength (r : ReadyResult) : ReadyResult :=
  { r with textByteLen := Text.byteLength r.text }

/-- `read_result_locked` of the source. -/
def readResultLocked (services : Services) (now : Nat) (store : Store) (resultId : Id) :
    Except Error ReadyResult := do
  let result ← Store.require (store.results.get resultId)
  let material ← Store.require (store.materials.get result.materialId)
  let group ← Store.require (store.groups.get result.groupId)
  refuseIf (result.revoked = true) (.new "result_revoked")
  refuseIf (result.expiresAt ≤ now) (.new "result_expired")
  refuseIf (material.status ≠ .ready ∨ material.resultId ≠ some resultId ∨
    material.revision ≠ result.revision ∨
    group.dictionaryRevision ≠ result.dictionaryRevision) (.new "result_not_ready")
  refuseIf (services.hash (utf8 result.text) ≠ result.outputSha256) (.new "result_integrity_failed")
  let analysis : Analysis :=
    { text := result.text
      findings := result.findings
      aiFindings := none
      replacements := result.replacements
      needsReview := false
      sourceSha256 := result.sourceSha256
      outputSha256 := result.outputSha256 }
  textResultAs "sensitive_content_blocked" (services.validateAnalysis analysis)
  textResultAs "result_integrity_failed"
    (services.verifyAnalysisSource material.originalText analysis)
  .ok result

/-- The text of a material which a conversation asks for: the redacted one, or the original
one at the revision which the user authorized. -/
inductive ContextSource where
  | redacted
  | original (expectedRevision : Option Nat)
deriving DecidableEq

/-- What a reader holds between its accesses to the store. -/
inductive Reader where
  | idle
  | opened (m : Material) (source : ContextSource)
  | fillsResult (r : ReadyResult)
  | fillsMaterial (m : Material) (byteLen : Nat)
deriving DecidableEq

/-- What a reader does next. -/
inductive Call where
  | read (materialId : Id) (source : ContextSource)
  | proceed
  | abandon

/-- The copy is saved when it lacks its metadata. -/
def fills (m : Material) (byteLen : Nat) : Reader :=
  if lacksMetadata m then .fillsMaterial m byteLen else .idle

/-- The branch of `initial_ai_messages` for a redacted text. -/
def readRedacted (services : Services) (now : Nat) (m : Material) : Op Reader := do
  let resultId ← lift (presentOr m.resultId (.new "redacted_material_not_ready"))
  let store ← current
  let result ← lift (readResultLocked services now store resultId)
  pure (if result.textByteLen = 0 then .fillsResult result else .idle)

/-- The branch of `initial_ai_messages` for an original text. -/
def readOriginal (services : Services) (m : Material) (expectedRevision : Option Nat) :
    Op Reader := do
  let expected ← lift (presentOr expectedRevision (.new "ai_run_reauthorization_required"))
  refuse (m.status = .revoked) (.new "material_revoked")
  refuse (m.revision ≠ expected) (.new "source_changed")
  if m.originalText ≠ [] then
    pure (fills m (Text.byteLength m.originalText))
  else do
    let store ← current
    let bytes ← lift (Store.require (store.sources.get m.id))
    refuse (services.hash bytes ≠ m.sourceSha256) (.new "source_integrity_failed")
    pure (fills m bytes.length)

/-- `initial_ai_messages` for one material, one access to the store at a time. Between two
accesses other requests can come in, and the conversation may be dropped. -/
def Reader.step (services : Services) (now : Nat) : Reader → Call → Option (Op Reader)
  | .idle, .read materialId source => some do
      let store ← current
      let m ← lift (store.material materialId)
      pure (.opened m source)
  | .opened m .redacted, .proceed => some (readRedacted services now m)
  | .opened m (.original expected), .proceed => some (readOriginal services m expected)
  | .fillsResult r, .proceed => some do
      commit [.result r.id (withTextLength r)]
      pure .idle
  | .fillsMaterial m byteLen, .proceed => some do
      commit [.material m.id (withMetadata m byteLen)]
      pure .idle
  | _, .abandon => some (pure .idle)
  | _, _ => none

/-! ## Sessions -/

/-- The service and the readers of its process. -/
structure Session where
  world : World
  readers : Nat → Reader

/-- A new workspace without readers. -/
def Session.initial : Session := ⟨World.initial, fun _ => .idle⟩

/-- An event of the service, or one access of a reader. -/
inductive SessionEvent where
  | service (event : Event)
  | reader (index now : Nat) (call : Call) (allowed : Option Nat)

/-- The reader after an access; an error ends it. -/
def Reader.next : Except Error Reader → Reader
  | .ok reader => reader
  | .error _ => .idle

/-- Execute one event of a session. The readers end with their process. -/
def sessionStep (services : Services) (pool : Nat) (session : Session) :
    SessionEvent → Option Session
  | .service event =>
      (step services pool session.world event).map fun world =>
        ⟨world, if world.live.isSome then session.readers else fun _ => .idle⟩
  | .reader index now call allowed =>
      match (session.readers index).step services now call with
      | some op =>
          if session.world.live.isSome then
            let outcome := op.execute session.world.store allowed
            some ⟨{ session.world with store := outcome.state },
              Function.update session.readers index (Reader.next outcome.result)⟩
          else
            none
      | none => none

/-- The service with its readers. -/
def sessionMachine (services : Services) (pool : Nat) : Machine Session SessionEvent where
  step := sessionStep services pool

/-- No update is lost at an event: no revision goes back, a revoked result stays revoked, and
the access of a reader leaves the status and the result of every material as they are. -/
structure KeepsUpdates (session : Session) (event : SessionEvent) (next : Session) : Prop where
  revisions : ∀ id m, session.world.store.materials.get id = some m →
    ∃ later, next.world.store.materials.get id = some later ∧ m.revision ≤ later.revision
  revoked : ∀ id r, session.world.store.results.get id = some r → r.revoked = true →
    ∃ later, next.world.store.results.get id = some later ∧ later.revoked = true
  overwrites : ∀ index now call allowed, event = .reader index now call allowed →
    ∀ id m, session.world.store.materials.get id = some m →
      ∃ later, next.world.store.materials.get id = some later ∧ later.status = m.status ∧
        later.resultId = m.resultId

/-- Nothing has moved the record whose copy a reader is about to save: the material has the
revision, the status and the result of the copy, and the result is not revoked. -/
def Reader.Unmoved (store : Store) : Reader → Prop
  | .fillsMaterial m _ => ∀ stored, store.materials.get m.id = some stored →
      stored.revision = m.revision ∧ stored.status = m.status ∧ stored.resultId = m.resultId
  | .fillsResult r => ∀ stored, store.results.get r.id = some stored → stored.revoked = false
  | .idle | .opened .. => True

/-- A reader saves only copies of records which have not moved. -/
def SavesUnmoved (session : Session) : SessionEvent → Session → Prop
  | .reader index _ .proceed allowed, _ =>
      allowed ≠ some 0 → (session.readers index).Unmoved session.world.store
  | _, _ => True

/-! ## What the service does to the records which readers hold -/

/-- No revision goes back, and a ready material stays ready in its group until it gets a later
revision. -/
def KeepsReady (before after : Store) : Prop :=
  ∀ id m, before.materials.get id = some m → ∃ later, after.materials.get id = some later ∧
    m.revision ≤ later.revision ∧
    (m.status = .ready →
      (later.status = .ready ∧ later.groupId = m.groupId) ∨ m.revision < later.revision)

theorem KeepsReady.refl (store : Store) : KeepsReady store store :=
  fun _ m found => ⟨m, found, le_rfl, fun ready => .inl ⟨ready, rfl⟩⟩

theorem KeepsReady.trans {first second third : Store} (left : KeepsReady first second)
    (right : KeepsReady second third) : KeepsReady first third := by
  intro id m found
  obtain ⟨middle, middleFound, middleLater, middleReady⟩ := left id m found
  obtain ⟨last, lastFound, lastLater, lastReady⟩ := right id middle middleFound
  refine ⟨last, lastFound, Nat.le_trans middleLater lastLater, fun ready => ?_⟩
  rcases middleReady ready with ⟨stillReady, sameGroup⟩ | strictly
  · rcases lastReady stillReady with ⟨readyAgain, group⟩ | strictly
    · exact .inl ⟨readyAgain, group.trans sameGroup⟩
    · exact .inr (Nat.lt_of_le_of_lt middleLater strictly)
  · exact .inr (Nat.lt_of_lt_of_le strictly lastLater)

/-- Rows which spare what is neither queued nor running. -/
theorem Spares.keepsReady {store : Store} {rows : List Row} (spares : Spares store rows)
    (grows : Grows store (store.putMany rows)) : KeepsReady store (store.putMany rows) := by
  intro id m found
  obtain ⟨later, laterFound, isLater⟩ := grows id m found
  refine ⟨later, laterFound, isLater, fun ready => ?_⟩
  have kept := spares.kept found (by simp [ready]) (by simp [ready])
  obtain rfl := Option.some.inj (kept.symm.trans laterFound)
  exact .inl ⟨ready, rfl⟩

/-- The service keeps ready materials. -/
theorem Sound.keeps_ready {services : Services} {pool : Nat} {world next : World} {event : Event}
    (sound : Sound world) (taken : Workspace.step services pool world event = some next) :
    KeepsReady world.store next.store := by
  refine sound.store_invariant taken (KeepsReady world.store) ?_ ?_ ?_ ?_ (.refl _)
  · intro _ store rows kept lawful
    refine kept.trans fun id m found => ?_
    obtain ⟨later, laterFound, isLater, held, -⟩ := lawful.supersedes id m found
    refine ⟨later, laterFound, isLater, fun ready => ?_⟩
    rcases held (.inr ready) with rfl | strictly
    · exact .inl ⟨ready, rfl⟩
    · exact .inr strictly
  · exact fun _ kept attempt => kept.trans (attempt.spares.keepsReady attempt.grows)
  · exact fun kept claim => kept.trans (claim.spares.keepsReady claim.grows)
  · exact fun kept recovers => kept.trans (recovers.spares.keepsReady recovers.grows)

/-- A result without its text length. -/
def ReadyResult.body (r : ReadyResult) : ReadyResult := { r with textByteLen := 0 }

/-- A stored result keeps its body or is revoked. -/
def KeepsResults (before after : Store) : Prop :=
  ∀ id r, before.results.get id = some r → ∃ later, after.results.get id = some later ∧
    (later.revoked = true ∨ later.body = r.body)

theorem KeepsResults.refl (store : Store) : KeepsResults store store :=
  fun _ r found => ⟨r, found, .inr rfl⟩

/-- The body of a result says whose it is and whether it is revoked. -/
theorem ReadyResult.of_body {r other : ReadyResult} (same : r.body = other.body) :
    r.revoked = other.revoked ∧ r.materialId = other.materialId ∧ r.revision = other.revision ∧
      r.dictionaryRevision = other.dictionaryRevision := by
  have fields := ReadyResult.mk.inj same
  tauto

theorem KeepsResults.trans {first second third : Store} (left : KeepsResults first second)
    (right : KeepsResults second third) : KeepsResults first third := by
  intro id r found
  obtain ⟨middle, middleFound, middleKept⟩ := left id r found
  obtain ⟨last, lastFound, lastKept⟩ := right id middle middleFound
  refine ⟨last, lastFound, ?_⟩
  rcases lastKept with revoked | same
  · exact .inl revoked
  · exact middleKept.imp (ReadyResult.of_body same).1.trans same.trans

/-- Rows which bring no result under a stored identifier unless it is revoked. -/
theorem keepsResults_of_rows {store : Store} {rows : List Row}
    (revokes : ∀ id r, .result id r ∈ rows → (store.results.get id).isSome → r.revoked = true) :
    KeepsResults store (store.putMany rows) := by
  intro id r found
  have stays : ((store.putMany rows).results.get id).isSome :=
    results_putMany_isSome (by simp [found] : (store.results.get id).isSome)
  obtain ⟨later, laterFound⟩ := Option.isSome_iff_exists.mp stays
  refine ⟨later, laterFound, ?_⟩
  rcases results_putMany_cases laterFound with member | ⟨kept, -⟩
  · exact .inl (revokes id later member (by simp [found]))
  · exact .inr (congrArg ReadyResult.body (Option.some.inj (kept.symm.trans found)))

theorem Lawful.keepsResults {fresh : List Id} {store : Store} {rows : List Row}
    (lawful : Lawful fresh store rows) : KeepsResults store (store.putMany rows) := by
  refine keepsResults_of_rows fun id r member stored => ?_
  cases lawful with
  | rewrite rewrites => exact (rewrites.withdraws.result member).2.1
  | consent rewrites => exact (rewrites.withdraws.result (by simpa using member)).2.1
  | @publish _ m published revoked publishes =>
    have absent : id ≠ published.id := by
      rintro rfl
      simp [publishes.fresh] at stored
    rcases revokedResult_eq_ok.mp publishes.revokes with ⟨-, rfl⟩ | ⟨other, _, -, -, rfl⟩
    · obtain ⟨rfl, -⟩ : id = published.id ∧ r = published := by simpa using member
      exact absurd rfl absent
    · rcases (by simpa using member : (id = other ∧ r = _) ∨ (id = published.id ∧ r = published)) with
        ⟨-, rfl⟩ | ⟨rfl, -⟩
      · rfl
      · exact absurd rfl absent

theorem AttemptRows.keepsResults {fresh : List Id} {id : Id} {revision : Nat} {store : Store}
    {rows : List Row} (attempt : AttemptRows fresh id revision store rows) :
    KeepsResults store (store.putMany rows) := by
  refine keepsResults_of_rows fun resultId r member stored => ?_
  cases attempt with
  | stage => simp at member
  | consent => simp at member
  | move => simp at member
  | publish current keyed sameRevision isFresh publishes =>
    obtain ⟨rfl, -⟩ : resultId = _ ∧ r = _ := by simpa using member
    simp [publishes.fresh] at stored

/-- The service keeps the stored results. -/
theorem Sound.keeps_results {services : Services} {pool : Nat} {world next : World} {event : Event}
    (sound : Sound world) (taken : Workspace.step services pool world event = some next) :
    KeepsResults world.store next.store := by
  refine sound.store_invariant taken (KeepsResults world.store) ?_ ?_ ?_ ?_ (.refl _)
  · exact fun _ _ _ kept lawful => kept.trans lawful.keepsResults
  · exact fun _ kept attempt => kept.trans attempt.keepsResults
  · intro store rows kept claim
    cases claim with
    | claim => exact kept.trans (keepsResults_of_rows (by simp))
  · intro store rows kept recovers
    cases recovers <;> exact kept.trans (keepsResults_of_rows (by simp))

/-! ## Copies -/

/-- The stored material is not older than the copy, and while the copy of a ready material is
of the present revision, it is ready and in the same group. -/
def CopyOf (store : Store) (m : Material) : Prop :=
  ∃ stored, store.materials.get m.id = some stored ∧ m.revision ≤ stored.revision ∧
    (m.status = .ready → m.revision < stored.revision ∨
      (stored.status = .ready ∧ stored.groupId = m.groupId))

/-- What a reader holds is an old record of the store. -/
def Reader.Holds (store : Store) : Reader → Prop
  | .idle => True
  | .opened m _ | .fillsMaterial m _ => CopyOf store m
  | .fillsResult r => r.revoked = false ∧ ∃ stored, store.results.get r.id = some stored ∧
      (stored.revoked = true ∨ stored.body = r.body)

theorem CopyOf.kept {before after : Store} {m : Material} (copy : CopyOf before m)
    (kept : KeepsReady before after) : CopyOf after m := by
  obtain ⟨stored, found, notOlder, ready⟩ := copy
  obtain ⟨later, laterFound, isLater, same⟩ := kept _ _ found
  refine ⟨later, laterFound, Nat.le_trans notOlder isLater, fun isReady => ?_⟩
  rcases ready isReady with strictly | ⟨storedReady, sameGroup⟩
  · exact .inl (Nat.lt_of_lt_of_le strictly isLater)
  · rcases same storedReady with ⟨laterReady, group⟩ | strictly
    · exact .inr ⟨laterReady, group.trans sameGroup⟩
    · exact .inl (Nat.lt_of_le_of_lt notOlder strictly)

/-- The service moves records on, and the readers hold old ones. -/
theorem Reader.Holds.kept {before after : Store} {reader : Reader} (holds : reader.Holds before)
    (ready : KeepsReady before after) (results : KeepsResults before after) :
    reader.Holds after := by
  cases reader with
  | idle => trivial
  | opened m source => exact CopyOf.kept holds ready
  | fillsMaterial m byteLen => exact CopyOf.kept holds ready
  | fillsResult r =>
    obtain ⟨unrevoked, stored, found, same⟩ := holds
    obtain ⟨later, laterFound, kept⟩ := results _ _ found
    refine ⟨unrevoked, later, laterFound, ?_⟩
    rcases kept with revoked | sameBody
    · exact .inl revoked
    · exact same.imp (ReadyResult.of_body sameBody).1.trans sameBody.trans

/-! ## Saving a copy -/

section Saving

variable {store : Store}

theorem materials_putMany_material (m : Material) (id : Id) :
    (store.putMany [.material m.id m]).materials.get id =
      if id = m.id then some m else store.materials.get id :=
  Table.get_put _ _ _ _

theorem results_putMany_result (r : ReadyResult) (id : Id) :
    (store.putMany [.result r.id r]).results.get id =
      if id = r.id then some r else store.results.get id :=
  Table.get_put _ _ _ _

/-- A copy of a material which has not moved. -/
structure SameMaterial (stored written : Material) : Prop where
  revision : written.revision = stored.revision
  status : written.status = stored.status
  resultId : written.resultId = stored.resultId
  group : written.resultId ≠ none → written.groupId = stored.groupId

theorem Published.save_material (holds : Published store) {stored written : Material}
    (found : store.materials.get written.id = some stored) (same : SameMaterial stored written) :
    Published (store.putMany [.material written.id written]) where
  materialKeyed := by
    intro id m mFound
    rw [materials_putMany_material] at mFound
    split at mFound
    · rename_i own
      obtain rfl := Option.some.inj mFound
      exact own.symm
    · exact holds.materialKeyed mFound
  resultKeyed := holds.resultKeyed
  live := by
    intro id r rFound unrevoked
    obtain ⟨m, mFound, names⟩ := holds.live rFound unrevoked
    rw [materials_putMany_material]
    split
    · rename_i own
      rw [own, found] at mFound
      obtain rfl := Option.some.inj mFound
      exact ⟨written, rfl, same.resultId.trans names⟩
    · exact ⟨m, mFound, names⟩
  named := by
    intro id m resultId mFound names
    rw [materials_putMany_material] at mFound
    split at mFound
    · rename_i own
      obtain rfl := Option.some.inj mFound
      obtain ⟨r, g, rFound, gFound, status, owner, revision, dictionary⟩ :=
        holds.named found (same.resultId.symm.trans names)
      exact ⟨r, g, rFound, by rw [same.group (by simp [names])]; exact gFound,
        same.status.trans status, owner.trans own.symm, revision.trans same.revision.symm,
        dictionary⟩
    · exact holds.named mFound names
  ready := by
    intro id m mFound status
    rw [materials_putMany_material] at mFound
    split at mFound
    · obtain rfl := Option.some.inj mFound
      rw [same.resultId]
      exact holds.ready found (same.status.symm.trans status)
    · exact holds.ready mFound status

theorem Published.save_result (holds : Published store) {stored written : ReadyResult}
    (found : store.results.get written.id = some stored)
    (same : stored.body = written.body) :
    Published (store.putMany [.result written.id written]) where
  materialKeyed := holds.materialKeyed
  resultKeyed := by
    intro id r rFound
    rw [results_putMany_result] at rFound
    split at rFound
    · rename_i own
      obtain rfl := Option.some.inj rFound
      exact own.symm
    · exact holds.resultKeyed rFound
  live := by
    intro id r rFound unrevoked
    rw [results_putMany_result] at rFound
    split at rFound
    · rename_i own
      obtain rfl := Option.some.inj rFound
      obtain ⟨sameRevoked, sameOwner, -, -⟩ := ReadyResult.of_body same
      obtain ⟨m, mFound, names⟩ := holds.live found (sameRevoked.trans unrevoked)
      rw [sameOwner] at mFound
      exact ⟨m, mFound, by rw [own]; exact names⟩
    · exact holds.live rFound unrevoked
  named := by
    intro id m resultId mFound names
    obtain ⟨r, g, rFound, gFound, status, owner, revision, dictionary⟩ := holds.named mFound names
    rw [results_putMany_result]
    split
    · rename_i own
      rw [own, found] at rFound
      obtain rfl := Option.some.inj rFound
      obtain ⟨-, sameOwner, sameRevision, sameDictionary⟩ := ReadyResult.of_body same
      exact ⟨written, g, rfl, gFound, status, sameOwner.symm.trans owner,
        sameRevision.symm.trans revision, sameDictionary.symm.trans dictionary⟩
    · exact ⟨r, g, rFound, gFound, status, owner, revision, dictionary⟩
  ready := holds.ready

/-- Saving a copy of a material which has not moved keeps the invariant of the service. -/
theorem Sound.save_material {world : World} (sound : Sound world) {stored written : Material}
    (found : world.store.materials.get written.id = some stored)
    (same : SameMaterial stored written) :
    Sound { world with store := world.store.putMany [.material written.id written] } where
  published := sound.published.save_material found same
  known := sound.known.putMany (by
    have owned := sound.known.material found
    constructor <;> simp_all)
  carried := by
    intro process index alive working
    obtain ⟨id, revision, m, carries, mFound, notOlder⟩ := sound.carried alive working
    change ∃ id revision m, Carries id revision (process.workers index) ∧
      (world.store.putMany [.material written.id written]).materials.get id = some m ∧
        revision ≤ m.revision
    refine ⟨id, revision, if id = written.id then written else m, carries, ?_, ?_⟩
    · rw [materials_putMany_material]
      split
      · rfl
      · exact mFound
    · split
      · rename_i own
        rw [own, found] at mFound
        obtain rfl := Option.some.inj mFound
        rw [same.revision]
        exact notOlder
      · exact notOlder

/-- Saving a copy of a result which is not revoked keeps the invariant of the service. -/
theorem Sound.save_result {world : World} (sound : Sound world) {stored written : ReadyResult}
    (found : world.store.results.get written.id = some stored)
    (same : stored.body = written.body) :
    Sound { world with store := world.store.putMany [.result written.id written] } where
  published := sound.published.save_result found same
  known := sound.known.putMany (by
    have owned := sound.known.result found
    constructor <;> simp_all)
  carried := sound.carried

end Saving

/-! ## Steps of a reader -/

/-- The transaction which saves the copy of a reader. -/
inductive Reader.Saves : Reader → List Row → Prop where
  | material {m : Material} {byteLen : Nat} :
      Reader.Saves (.fillsMaterial m byteLen) [.material m.id (withMetadata m byteLen)]
  | result {r : ReadyResult} : Reader.Saves (.fillsResult r) [.result r.id (withTextLength r)]

/-- A program which may commit nothing leaves the store as it is, and its value satisfies the
postcondition there. -/
theorem Op.execute_unchanged {α : Type} {op : Op α} {store : Store} {allowed : Option Nat}
    {post : α → Store → Prop} (holds : op.Holds Store.putMany (fun _ _ => False) post store) :
    (op.execute store allowed).state = store ∧
      ∀ value, (op.execute store allowed).result = .ok value → post value store := by
  have same : (op.execute store allowed).state = store :=
    holds.run_invariant (fun state => state = store) (fun _ impossible => impossible.elim) rfl allowed
  refine ⟨same, fun value ends => ?_⟩
  have ensured := holds.run_post ends
  rwa [show (op.run Store.putMany storageFailed store allowed).state = store from same] at ensured

/-- A result which can be read is an unrevoked one of the store. -/
theorem readResultLocked_eq_ok {services : Services} {now : Nat} {store : Store} {resultId : Id}
    {r : ReadyResult} (read : readResultLocked services now store resultId = .ok r) :
    store.results.get resultId = some r ∧ r.revoked = false := by
  simp only [readResultLocked, bind_eq_ok, Store.require_eq_ok, refuseIf_eq_ok] at read
  obtain ⟨result, found, _, -, _, -, -, unrevoked, rest⟩ := read
  obtain ⟨-, -, -, -, -, -, -, -, -, -, same⟩ := rest
  obtain rfl := Except.ok.inj same
  exact ⟨found, by simpa using unrevoked⟩

/-- What an access of a reader does: it reads a record, or it saves its copy. -/
theorem Reader.step_effect {services : Services} {now : Nat} {store : Store} {reader : Reader}
    {call : Call} {op : Op Reader} (published : Published store) (holds : reader.Holds store)
    (enabled : reader.step services now call = some op) (allowed : Option Nat) :
    ((op.execute store allowed).state = store ∧
        (Reader.next (op.execute store allowed).result).Holds store ∧
        (call = .proceed → allowed ≠ some 0 → reader.Unmoved store)) ∨
      (call = .proceed ∧ allowed ≠ some 0 ∧ ∃ rows, reader.Saves rows ∧
        (op.execute store allowed).state = store.putMany rows ∧
        Reader.next (op.execute store allowed).result = .idle) := by
  have quiet : (call = .proceed → allowed ≠ some 0 → reader.Unmoved store) →
      op.Holds Store.putMany (fun _ _ => False) (fun next after => next.Holds after) store →
      ((op.execute store allowed).state = store ∧
        (Reader.next (op.execute store allowed).result).Holds store ∧
        (call = .proceed → allowed ≠ some 0 → reader.Unmoved store)) := by
    intro unmoved commitsNothing
    obtain ⟨same, ends⟩ := @Op.execute_unchanged _ _ _ allowed _ commitsNothing
    refine ⟨same, ?_, unmoved⟩
    cases result : (op.execute store allowed).result with
    | error error => trivial
    | ok next => exact ends next result
  unfold Reader.step at enabled
  split at enabled
  case h_7 => cases enabled
  all_goals obtain rfl := Option.some.inj enabled
  case h_1 =>
    refine .inl (quiet (fun _ _ => trivial) ?_)
    simp only [Program.holds_bind, Program.holds_current, Program.holds_lift, Store.material_eq_ok,
      Program.holds_pure]
    intro m found
    obtain rfl := published.materialKeyed found
    exact ⟨m, found, le_rfl, fun ready => .inr ⟨ready, rfl⟩⟩
  case h_2 m =>
    refine .inl (quiet (fun _ _ => trivial) ?_)
    simp only [readRedacted, Program.holds_bind, Program.holds_current, Program.holds_lift,
      Program.holds_pure]
    intro resultId _ r read
    obtain ⟨found, unrevoked⟩ := readResultLocked_eq_ok read
    obtain rfl := published.resultKeyed found
    split
    · exact ⟨unrevoked, r, found, .inr rfl⟩
    · trivial
  case h_3 m expected =>
    refine .inl (quiet (fun _ _ => trivial) ?_)
    have copies : ∀ byteLen, (fills m byteLen).Holds store := by
      intro byteLen
      unfold fills
      split
      · exact holds
      · trivial
    simp only [readOriginal, Program.holds_bind, Program.holds_lift, Program.holds_refuse]
    intro _ _ _ _
    split
    · exact copies _
    · simp only [Program.holds_bind, Program.holds_current, Program.holds_lift,
        Program.holds_refuse]
      exact fun _ _ _ => copies _
  case h_4 r =>
    cases allowed with
    | none => exact .inr ⟨rfl, by simp, _, .result, rfl, rfl⟩
    | some count =>
      cases count with
      | zero => exact .inl ⟨rfl, trivial, fun _ stops => absurd rfl stops⟩
      | succ count => exact .inr ⟨rfl, by simp, _, .result, rfl, rfl⟩
  case h_5 m byteLen =>
    cases allowed with
    | none => exact .inr ⟨rfl, by simp, _, .material, rfl, rfl⟩
    | some count =>
      cases count with
      | zero => exact .inl ⟨rfl, trivial, fun _ stops => absurd rfl stops⟩
      | succ count => exact .inr ⟨rfl, by simp, _, .material, rfl, rfl⟩
  case h_6 =>
    exact .inl (quiet (fun isProceed => by cases isProceed) trivial)

/-! ## Runs -/

/-- The service is sound, and every reader holds an old record of the store. -/
structure SessionSound (session : Session) : Prop where
  sound : Sound session.world
  copies : ∀ index, (session.readers index).Holds session.world.store

theorem SessionSound.initial : SessionSound Session.initial := ⟨Sound.initial, fun _ => trivial⟩

/-- The service loses no update, and the readers keep old records. -/
theorem SessionSound.service {services : Services} {pool : Nat} {session next : Session}
    {event : Event} (holds : SessionSound session)
    (taken : sessionStep services pool session (.service event) = some next) :
    KeepsUpdates session (.service event) next ∧ SessionSound next := by
  obtain ⟨world, stepped, rfl⟩ := Option.map_eq_some_iff.mp taken
  have ready := holds.sound.keeps_ready stepped
  have results := holds.sound.keeps_results stepped
  constructor
  · constructor
    · intro id m found
      obtain ⟨later, laterFound, isLater, -⟩ := ready id m found
      exact ⟨later, laterFound, isLater⟩
    · intro id r found revoked
      obtain ⟨later, laterFound, kept⟩ := results id r found
      exact ⟨later, laterFound,
        kept.elim (fun same => same) fun same => (ReadyResult.of_body same).1.trans revoked⟩
    · intro index now call allowed isReader
      cases isReader
  · refine ⟨holds.sound.step stepped, fun index => ?_⟩
    change Reader.Holds world.store
      ((if world.live.isSome then session.readers else fun _ => .idle) index)
    split
    · exact (holds.copies index).kept ready results
    · trivial

/-- Saving the copy of a material loses no update exactly when the material has not moved, and
then every reader keeps an old record. -/
theorem SessionSound.save_material {session : Session} (holds : SessionSound session) {m : Material}
    {byteLen : Nat} (copy : CopyOf session.world.store m) :
    let after := session.world.store.putMany [.material m.id (withMetadata m byteLen)]
    (((∀ id before, session.world.store.materials.get id = some before →
          ∃ later, after.materials.get id = some later ∧ before.revision ≤ later.revision) ∧
        (∀ id before, session.world.store.materials.get id = some before →
          ∃ later, after.materials.get id = some later ∧ later.status = before.status ∧
            later.resultId = before.resultId)) ↔
      (Reader.fillsMaterial m byteLen).Unmoved session.world.store) ∧
    ((Reader.fillsMaterial m byteLen).Unmoved session.world.store →
      Sound { session.world with store := after } ∧
        KeepsReady session.world.store after ∧ KeepsResults session.world.store after) := by
  intro after
  have read : ∀ id, after.materials.get id =
      if id = m.id then some (withMetadata m byteLen)
      else session.world.store.materials.get id :=
    materials_putMany_material (withMetadata m byteLen)
  obtain ⟨stored, found, notOlder, ready⟩ := copy
  refine ⟨⟨?_, ?_⟩, fun unmoved => ?_⟩
  · rintro ⟨revisions, overwrites⟩ other otherFound
    obtain rfl := Option.some.inj (found.symm.trans otherFound)
    obtain ⟨later, laterFound, isLater⟩ := revisions m.id stored found
    obtain ⟨same, sameFound, status, resultId⟩ := overwrites m.id stored found
    rw [read, if_pos rfl] at laterFound sameFound
    obtain rfl := Option.some.inj laterFound
    obtain rfl := Option.some.inj sameFound
    exact ⟨Nat.le_antisymm isLater notOlder, status.symm, resultId.symm⟩
  · intro unmoved
    obtain ⟨revision, status, resultId⟩ := unmoved stored found
    constructor <;> intro id before beforeFound <;> rw [read] <;> split
    · rename_i own
      rw [own, found] at beforeFound
      obtain rfl := Option.some.inj beforeFound
      exact ⟨_, rfl, Nat.le_of_eq revision⟩
    · exact ⟨before, beforeFound, le_rfl⟩
    · rename_i own
      rw [own, found] at beforeFound
      obtain rfl := Option.some.inj beforeFound
      exact ⟨_, rfl, status.symm, resultId.symm⟩
    · exact ⟨before, beforeFound, rfl, rfl⟩
  · obtain ⟨revision, status, resultId⟩ := unmoved stored found
    have sameGroup : stored.status = .ready → stored.groupId = m.groupId := by
      intro isReady
      rcases ready (status.symm.trans isReady) with strictly | ⟨-, group⟩
      · omega
      · exact group
    have same : SameMaterial stored (withMetadata m byteLen) := by
      refine ⟨revision.symm, status.symm, resultId.symm, fun named => ?_⟩
      obtain ⟨name, names⟩ := Option.ne_none_iff_exists'.mp named
      obtain ⟨-, -, -, -, isReady, -⟩ :=
        holds.sound.published.named found (resultId.trans names)
      exact (sameGroup isReady).symm
    have saved := @Sound.save_material _ holds.sound stored (withMetadata m byteLen) found same
    refine ⟨saved, ?_, KeepsResults.refl _⟩
    intro id before beforeFound
    rw [read]
    split
    · rename_i own
      rw [own, found] at beforeFound
      obtain rfl := Option.some.inj beforeFound
      exact ⟨_, rfl, Nat.le_of_eq revision, fun isReady =>
        .inl ⟨status.symm.trans isReady, (sameGroup isReady).symm⟩⟩
    · exact ⟨before, beforeFound, le_rfl, fun isReady => .inl ⟨isReady, rfl⟩⟩

/-- Saving the copy of a result loses no update exactly when the result is not revoked, and
then every reader keeps an old record. -/
theorem SessionSound.save_result {session : Session} (holds : SessionSound session)
    {r : ReadyResult} (copy : (Reader.fillsResult r).Holds session.world.store) :
    let after := session.world.store.putMany [.result r.id (withTextLength r)]
    ((∀ id before, session.world.store.results.get id = some before → before.revoked = true →
        ∃ later, after.results.get id = some later ∧ later.revoked = true) ↔
      (Reader.fillsResult r).Unmoved session.world.store) ∧
    ((Reader.fillsResult r).Unmoved session.world.store →
      Sound { session.world with store := after } ∧
        KeepsReady session.world.store after ∧ KeepsResults session.world.store after) := by
  intro after
  have read : ∀ id, after.results.get id =
      if id = r.id then some (withTextLength r) else session.world.store.results.get id :=
    results_putMany_result (withTextLength r)
  obtain ⟨unrevoked, stored, found, same⟩ := copy
  refine ⟨⟨?_, ?_⟩, fun unmoved => ?_⟩
  · intro revokes other otherFound
    obtain rfl := Option.some.inj (found.symm.trans otherFound)
    by_contra isRevoked
    obtain ⟨later, laterFound, laterRevoked⟩ := revokes r.id stored found (by simpa using isRevoked)
    rw [read, if_pos rfl] at laterFound
    obtain rfl := Option.some.inj laterFound
    simp [withTextLength, unrevoked] at laterRevoked
  · intro unmoved id before beforeFound revoked
    rw [read]
    split
    · rename_i own
      rw [own, found] at beforeFound
      obtain rfl := Option.some.inj beforeFound
      simp [unmoved stored found] at revoked
    · exact ⟨before, beforeFound, revoked⟩
  · have sameBody : stored.body = (withTextLength r).body :=
      same.resolve_left (by simp [unmoved stored found])
    have saved := @Sound.save_result _ holds.sound stored (withTextLength r) found sameBody
    refine ⟨saved, KeepsReady.refl _, ?_⟩
    intro id before beforeFound
    rw [read]
    split
    · rename_i own
      rw [own, found] at beforeFound
      obtain rfl := Option.some.inj beforeFound
      exact ⟨_, rfl, .inr sameBody.symm⟩
    · exact ⟨before, beforeFound, .inr rfl⟩

/-- An event loses no update exactly when a copy which it saves has not moved, and such an
event keeps the session sound. -/
theorem SessionSound.step {services : Services} {pool : Nat} {session next : Session}
    {event : SessionEvent} (holds : SessionSound session)
    (taken : sessionStep services pool session event = some next) :
    (KeepsUpdates session event next ↔ SavesUnmoved session event next) ∧
      (SavesUnmoved session event next → SessionSound next) := by
  cases event with
  | service event =>
    obtain ⟨keeps, sound⟩ := holds.service taken
    exact ⟨⟨fun _ => trivial, fun _ => keeps⟩, fun _ => sound⟩
  | reader index now call allowed =>
    simp only [sessionStep] at taken
    split at taken
    case h_2 => cases taken
    case h_1 op enabled =>
    split at taken
    case isFalse => cases taken
    case isTrue alive =>
    obtain rfl := Option.some.inj taken
    have unmovedIff : ∀ {after : Session}, call = .proceed → allowed ≠ some 0 →
        (SavesUnmoved session (.reader index now call allowed) after ↔
          (session.readers index).Unmoved session.world.store) := by
      rintro after rfl accepts
      exact ⟨fun unmoved => unmoved accepts, fun unmoved _ => unmoved⟩
    have copied : ∀ {after : Store} {reader : Reader}, reader.Holds after →
        KeepsReady session.world.store after → KeepsResults session.world.store after →
        ∀ other, (Function.update session.readers index reader other).Holds after := by
      intro after reader held ready results other
      rw [Function.update_apply]
      split
      · exact held
      · exact (holds.copies other).kept ready results
    rcases Reader.step_effect holds.sound.published (holds.copies index) enabled allowed with
      ⟨same, held, unmoved⟩ | ⟨proceeds, accepts, rows, saves, saved, ended⟩
    · have keeps : KeepsUpdates session (.reader index now call allowed)
          ⟨{ session.world with store := (op.execute session.world.store allowed).state },
            Function.update session.readers index
              (Reader.next (op.execute session.world.store allowed).result)⟩ := by
        constructor <;> simp only [same]
        · exact fun id m found => ⟨m, found, le_rfl⟩
        · exact fun id r found revoked => ⟨r, found, revoked⟩
        · exact fun _ _ _ _ _ id m found => ⟨m, found, rfl, rfl⟩
      refine ⟨⟨fun _ => ?_, fun _ => keeps⟩, fun _ => ?_⟩
      · cases call with
        | proceed => exact unmoved rfl
        | read => trivial
        | abandon => trivial
      · rw [same]
        exact ⟨holds.sound, copied held (KeepsReady.refl _) (KeepsResults.refl _)⟩
    · rw [unmovedIff proceeds accepts, saved, ended]
      have held := holds.copies index
      cases reader : session.readers index with
      | idle =>
        rw [reader] at saves
        cases saves
      | opened =>
        rw [reader] at saves
        cases saves
      | fillsMaterial m byteLen =>
        rw [reader] at saves held
        cases saves
        obtain ⟨keepsIff, kept⟩ := @SessionSound.save_material _ holds _ byteLen held
        constructor
        · rw [← keepsIff]
          constructor
          · exact fun keeps => ⟨keeps.revisions, keeps.overwrites index now call allowed rfl⟩
          · rintro ⟨revisions, overwrites⟩
            exact ⟨revisions, fun id r found revoked => ⟨r, found, revoked⟩,
              fun _ _ _ _ _ => overwrites⟩
        · intro unmoved
          obtain ⟨sound, ready, results⟩ := kept unmoved
          exact ⟨sound, copied trivial ready results⟩
      | fillsResult r =>
        rw [reader] at saves held
        cases saves
        obtain ⟨keepsIff, kept⟩ := holds.save_result held
        constructor
        · rw [← keepsIff]
          constructor
          · exact fun keeps => keeps.revoked
          · intro revoked
            exact ⟨fun id m found => ⟨m, found, le_rfl⟩, revoked,
              fun _ _ _ _ _ id m found => ⟨m, found, rfl, rfl⟩⟩
        · intro unmoved
          obtain ⟨sound, ready, results⟩ := kept unmoved
          exact ⟨sound, copied trivial ready results⟩

/-- Along every run of the service with its readers, no update is lost exactly when every copy
which is saved is a copy of a record that has not moved. -/
theorem saved_copies_lose_no_update {services : Services} {pool : Nat} (events : List SessionEvent) :
    (sessionMachine services pool).Along KeepsUpdates Session.initial events ↔
      (sessionMachine services pool).Along SavesUnmoved Session.initial events :=
  Machine.along_congr SessionSound.step events SessionSound.initial

/-- A file of an unknown format is submitted, a conversation reads it, and the user revokes it
before the conversation saves its copy. -/
def revokedWhileRead : List SessionEvent :=
  [.service (.start 0 [] none),
    .service (.request 1 (.createGroup "grp" "salt" "case".toList) none),
    .service (.request 2
      (.submit "task" ["mat"] "grp" "request" [⟨"a.rtf", [104, 105], none⟩] none) none),
    .reader 0 3 (.read "mat" (.original (some 1))) none,
    .reader 0 3 .proceed none,
    .service (.request 4 (.revokeMaterial "mat") none)]

/-- The revision and the status of the file at the end of a run. -/
def revisionAfter (events : List SessionEvent) : Option (Nat × Status) := do
  let session ← (sessionMachine plainServices 1).run Session.initial events
  let m ← session.world.store.materials.get "mat"
  pure (m.revision, m.status)

/-- The saved copy takes the revocation back. -/
theorem saved_copy_undoes_revocation :
    revisionAfter revokedWhileRead = some (2, .revoked) ∧
      revisionAfter (revokedWhileRead ++ [.reader 0 5 .proceed none]) = some (1, .queued) :=
  ⟨by decide +kernel, by decide +kernel⟩

end LawyerAssistance.Workspace

import LawyerAssistance.Workspace.Published

/-!
# What a request commits

`Lawful` says what one transaction of a request can do: it rewrites materials by
the moves of `Move` and withdraws their results, it records one new consent beside that,
or it publishes one reviewed material. Every request holds this guarantee from a store in the relation
`Published`, so a property of runs looks at two shapes of transactions instead of
at every request.
-/

namespace LawyerAssistance.Workspace

open PrivacyText

/-- How a request changes one material. Only a consent keeps the revision, and it puts
a material which waits back into the queue. -/
inductive Move (fresh : List Id) (id : Id) : Option Material → Material → Prop where
  | submitted {m : Material} (isFresh : id ∈ fresh) (status : m.status = .queued)
      (revision : m.revision = 1) : Move fresh id none m
  | revised {before m : Material} (later : before.revision < m.revision)
      (stopped : m.status ≠ .running) (task : m.taskId = before.taskId)
      (group : m.groupId = before.groupId) : Move fresh id (some before) m
  | requeued {before : Material}
      (waiting : before.status ∈ [Status.queued, .awaitingConsent, .needsReview]) :
      Move fresh id (some before) (requeuedMaterial before)
  | kept {before : Material} (stopped : before.status ∈ [Status.cancelled, .revoked]) :
      Move fresh id (some before) { before with resultId := none }

/-- Identifiers which nothing in a store uses. -/
structure Unused (fresh : List Id) (store : Store) : Prop where
  material : ∀ id ∈ fresh, store.materials.get id = none
  result : ∀ id ∈ fresh, store.results.get id = none
  group : ∀ id ∈ fresh, store.groups.get id = none
  consent : ∀ {taskId c}, store.consents.get taskId = some c → c.id ∉ fresh

/-- The rows of the tables which carry neither results nor consents nor stages. -/
def Row.isPlain : Row → Bool
  | .task .. | .client .. | .source .. | .eraseConsent .. | .provider .. => true
  | .group .. | .material .. | .result .. | .consent .. | .aiStage .. => false

/-- Rows which withdraw results, move materials, and end stages of materials that no worker
processes. -/
structure Rewrite (fresh : List Id) (store : Store) (rows : List Row) : Prop where
  withdraws : Withdrawal store rows
  moves : ∀ {id m}, .material id m ∈ rows → Move fresh id (store.materials.get id) m
  consents : ∀ {taskId c}, .consent taskId c ∉ rows
  stages : ∀ {id record}, .aiStage id record ∈ rows → record.stage.isRunning = false ∧
    ∃ m, store.materials.get id = some m ∧ m.status ≠ .running
  groups : ∀ {id g}, .group id g ∈ rows → id ∈ fresh ∨ (store.groups.get id).isSome

/-- A transaction of a request. -/
inductive Lawful (fresh : List Id) (store : Store) : List Row → Prop where
  | rewrite {rows : List Row} (rewrites : Rewrite fresh store rows) : Lawful fresh store rows
  | consent {rows : List Row} {taskId : Id} {c : CloudConsent}
      (rewrites : Rewrite fresh store rows) (isFresh : c.id ∈ fresh) (unused : c.usedMaterials = [])
      (unstored : ∀ {other before}, store.consents.get other = some before → before.id ≠ c.id) :
      Lawful fresh store (rows ++ [.consent taskId c])
  | publish {stored m : Material} {r : ReadyResult} {revoked : List Row}
      (publishes : Publication store stored m r revoked) (isFresh : r.id ∈ fresh)
      (later : stored.revision < m.revision) (task : m.taskId = stored.taskId) :
      Lawful fresh store (revoked ++ [.result r.id r] ++ [.material m.id m])

/-- The rows of a recorded consent withdraw what the other rows withdraw. -/
theorem Rewrite.append_consent_withdraws {fresh : List Id} {store : Store} {rows : List Row}
    (rewrites : Rewrite fresh store rows) {taskId : Id} {c : CloudConsent} :
    Withdrawal store (rows ++ [.consent taskId c]) where
  material := fun member => rewrites.withdraws.material (by simpa using member)
  taken := by
    intro id m stored resultId member found names
    obtain ⟨r, row⟩ := rewrites.withdraws.taken (by simpa using member) found names
    exact ⟨r, List.mem_append_left _ row⟩
  result := by
    intro id r member
    obtain ⟨keyed, revoked, stored, m, found, row⟩ :=
      rewrites.withdraws.result (by simpa using member)
    exact ⟨keyed, revoked, stored, m, found, List.mem_append_left _ row⟩
  group := by
    intro groupId g id stored resultId member found belongs names
    obtain ⟨m, row⟩ := rewrites.withdraws.group (by simpa using member) found belongs names
    exact ⟨m, List.mem_append_left _ row⟩

/-- A transaction of a request keeps the relation between materials and results. -/
theorem Lawful.published {fresh : List Id} {store : Store} {rows : List Row}
    (lawful : Lawful fresh store rows) (holds : Published store) :
    Published (store.putMany rows) := by
  cases lawful with
  | rewrite rewrites => exact rewrites.withdraws.published holds
  | consent rewrites isFresh unused unstored =>
      exact (rewrites.append_consent_withdraws).published holds
  | publish publishes isFresh later task => exact publishes.published holds

section Rewrites

variable {fresh : List Id} {store : Store}

theorem Rewrite.of_plain {rows : List Row} (plain : ∀ row ∈ rows, row.isPlain = true) :
    Rewrite fresh store rows := by
  have absent : ∀ row, row.isPlain = false → row ∉ rows := by
    intro row restricted member
    simp [plain row member] at restricted
  refine ⟨⟨?_, ?_, ?_, ?_⟩, ?_, absent _ rfl, ?_, ?_⟩ <;> intros <;>
    exact absurd ‹_› (absent _ rfl)

theorem Rewrite.nil : Rewrite fresh store [] := .of_plain (by simp)

/-- Two rewrites in one transaction. -/
theorem Rewrite.append {first second : List Row} (left : Rewrite fresh store first)
    (right : Rewrite fresh store second) : Rewrite fresh store (first ++ second) where
  withdraws := {
    material := fun member => (List.mem_append.mp member).elim left.withdraws.material
      right.withdraws.material
    taken := by
      intro id m stored resultId member found names
      rcases List.mem_append.mp member with inFirst | inSecond
      · obtain ⟨r, row⟩ := left.withdraws.taken inFirst found names
        exact ⟨r, List.mem_append_left _ row⟩
      · obtain ⟨r, row⟩ := right.withdraws.taken inSecond found names
        exact ⟨r, List.mem_append_right _ row⟩
    result := by
      intro id r member
      rcases List.mem_append.mp member with inFirst | inSecond
      · obtain ⟨keyed, revoked, stored, m, found, row⟩ := left.withdraws.result inFirst
        exact ⟨keyed, revoked, stored, m, found, List.mem_append_left _ row⟩
      · obtain ⟨keyed, revoked, stored, m, found, row⟩ := right.withdraws.result inSecond
        exact ⟨keyed, revoked, stored, m, found, List.mem_append_right _ row⟩
    group := by
      intro groupId g id stored resultId member found belongs names
      rcases List.mem_append.mp member with inFirst | inSecond
      · obtain ⟨m, row⟩ := left.withdraws.group inFirst found belongs names
        exact ⟨m, List.mem_append_left _ row⟩
      · obtain ⟨m, row⟩ := right.withdraws.group inSecond found belongs names
        exact ⟨m, List.mem_append_right _ row⟩ }
  moves := fun member => (List.mem_append.mp member).elim left.moves right.moves
  consents := fun member => (List.mem_append.mp member).elim left.consents right.consents
  stages := fun member => (List.mem_append.mp member).elim left.stages right.stages
  groups := fun member => (List.mem_append.mp member).elim left.groups right.groups

theorem Rewrite.gather {α : Type} {visit : α → Except Error (List Row)} {items : List α}
    {rows : List Row} (gathered : LawyerAssistance.gather visit items = .ok rows)
    (visited : ∀ item ∈ items, ∀ found, visit item = .ok found → Rewrite fresh store found) :
    Rewrite fresh store rows :=
  gather_induction (Rewrite fresh store) .nil Rewrite.append gathered visited

/-- One stored material which loses its result and moves. -/
theorem Rewrite.of_revokedResult (holds : Published store) {stored m : Material}
    {revoked : List Row} (found : store.materials.get m.id = some stored)
    (revokes : revokedResult store stored.resultId = .ok revoked) (nameless : m.resultId = none)
    (unready : m.status ≠ .ready) (move : Move fresh m.id (some stored) m) :
    Rewrite fresh store (revoked ++ [.material m.id m]) := by
  have withdraws := withdrawal_of_revokedResult holds found revokes nameless unready
  rcases revokedResult_eq_ok.mp revokes with ⟨-, rfl⟩ | ⟨resultId, r, -, -, rfl⟩ <;>
    exact ⟨withdraws, by simp_all, by simp, by simp, by simp⟩

theorem Rewrite.of_nameless (holds : Published store) {stored m : Material}
    (found : store.materials.get m.id = some stored) (unnamed : stored.resultId = none)
    (nameless : m.resultId = none) (unready : m.status ≠ .ready)
    (move : Move fresh m.id (some stored) m) : Rewrite fresh store [.material m.id m] := by
  have revokes : revokedResult store stored.resultId = .ok [] := by simp [unnamed, revokedResult]
  simpa using Rewrite.of_revokedResult holds found revokes nameless unready move

/-- A material which is not ready names no result. -/
theorem Published.nameless (holds : Published store) {id : Id} {m : Material}
    (found : store.materials.get id = some m) (unready : m.status ≠ .ready) :
    m.resultId = none := by
  cases names : m.resultId with
  | none => rfl
  | some resultId =>
      obtain ⟨-, -, -, -, status, -⟩ := holds.named found names
      exact absurd status unready

end Rewrites

/-! ## The requests -/

/-- Every transaction of a program from a store is lawful. -/
def LawfulOp {α : Type} (fresh : List Id) (store : Store) (op : Op α) : Prop :=
  op.Holds Store.putMany (Lawful fresh) (fun _ _ => True) store

section Requests

variable {fresh : List Id} {store : Store}

theorem createGroup_lawful (holds : Published store) (unused : Unused fresh store)
    {groupId salt : Id} (isFresh : groupId ∈ fresh) (name : Text) :
    LawfulOp fresh store (createGroup groupId salt name) := by
  simp only [LawfulOp, createGroup, Program.holds_bind, Program.holds_lift, Program.holds_commit]
  intro _ _
  refine ⟨.rewrite ⟨⟨by simp, by simp, by simp, ?_⟩, by simp, by simp, by simp, ?_⟩, trivial⟩
  · intro otherId g id stored resultId member found belongs names
    obtain ⟨-, group, -, groupFound, -⟩ := holds.named found names
    obtain ⟨rfl, -⟩ : otherId = groupId ∧ _ := by simpa using member
    simp [belongs, unused.group _ isFresh] at groupFound
  · intro id g member
    obtain ⟨rfl, -⟩ : id = groupId ∧ _ := by simpa using member
    exact .inl isFresh

theorem createClient_lawful (clientId : Id) (name : Text) (groupId : Id) :
    LawfulOp fresh store (createClient clientId name groupId) := by
  simp only [LawfulOp, createClient, Program.holds_bind, Program.holds_lift,
    Program.holds_current, Program.holds_commit]
  intro _ _ _ _
  exact ⟨.rewrite (.of_plain (by simp [Row.isPlain])), trivial⟩

theorem revokeClient_lawful (clientId : Id) :
    LawfulOp fresh store (revokeClient clientId) := by
  simp only [LawfulOp, revokeClient, Program.holds_bind, Program.holds_lift,
    Program.holds_current, Program.holds_commit]
  intro _ _
  exact ⟨.rewrite (.of_plain (by simp [Row.isPlain])), trivial⟩

theorem saveProvider_lawful (config : ProviderConfig) (prepared : Except Error Unit) :
    LawfulOp fresh store (saveProvider config prepared) := by
  simp only [LawfulOp, saveProvider, Program.holds_bind, Program.holds_lift,
    Program.holds_current, Program.holds_commit, Program.holds_send]
  intro _ _
  exact ⟨.rewrite (.of_plain (by simp [Row.isPlain])), trivial⟩

theorem revokeConsent_lawful (taskId : Id) :
    LawfulOp fresh store (revokeConsent taskId) := by
  simp only [LawfulOp, revokeConsent, Program.holds_bind, Program.holds_commit,
    Program.holds_send]
  exact ⟨.rewrite (.of_plain (by simp [Row.isPlain])), trivial⟩

theorem submit_lawful (unused : Unused fresh store) (services : Services) (now : Nat)
    (groupId requestId : Id) (files : List ImportFile) (clientId : Option Id) (taskId : Id)
    {materialIds : List Id} (areFresh : ∀ id ∈ materialIds, id ∈ fresh) :
    LawfulOp fresh store
      (submit services now groupId requestId files clientId taskId materialIds) := by
  simp only [LawfulOp, submit, Program.holds_bind, Program.holds_lift, Program.holds_refuse,
    Program.holds_current]
  intro _ _ _ _ _ group _ _ _
  split
  · simp
  · refine ⟨.rewrite (.append ?_ (.of_plain (by simp [Row.isPlain]))), trivial⟩
    have created : ∀ {id m}, Row.material id m ∈
        (materialIds.zip files).flatMap (fun pair =>
          [.source pair.1 pair.2.bytes,
            .material pair.1 (newMaterial services groupId group taskId pair.1 pair.2)]) →
        id ∈ fresh ∧ ∃ file, m = newMaterial services groupId group taskId id file := by
      intro id m member
      obtain ⟨⟨materialId, file⟩, inPairs, row⟩ := List.mem_flatMap.mp member
      obtain ⟨rfl, rfl⟩ : id = materialId ∧ m = _ := by simpa using row
      exact ⟨areFresh _ (List.of_mem_zip inPairs).1, file, rfl⟩
    refine ⟨⟨?_, ?_, by simp, by simp⟩, ?_, by simp, by simp, by simp⟩
    · intro id m member
      obtain ⟨-, file, rfl⟩ := created member
      exact ⟨rfl, rfl, by simp [newMaterial]⟩
    · intro id m stored resultId member found names
      simp [unused.material id (created member).1] at found
    · intro id m member
      obtain ⟨isFresh, file, rfl⟩ := created member
      rw [unused.material id isFresh]
      exact .submitted isFresh rfl rfl

theorem replaceMaterial_lawful (holds : Published store) (services : Services) (materialId : Id)
    (revision : Nat) (file : ImportFile) :
    LawfulOp fresh store (replaceMaterial services materialId revision file) := by
  simp only [LawfulOp, replaceMaterial, Program.holds_bind, Program.holds_lift,
    Program.holds_refuse, Program.holds_current, Program.holds_commit, Program.holds_send,
    Store.material_eq_ok]
  intro _ _ _ _ stored found _ revoked revokes
  obtain rfl := holds.materialKeyed found
  refine ⟨.rewrite ?_, trivial⟩
  rw [List.append_assoc]
  exact .append (.of_plain (by simp [Row.isPlain]))
    (.of_revokedResult (m := replacedMaterial services stored file) holds found revokes rfl
      (by simp [replacedMaterial])
      (.revised (by simp [replacedMaterial]) (by simp [replacedMaterial]) rfl rfl))

theorem cancelTask_lawful (holds : Published store) (taskId : Id) :
    LawfulOp fresh store (cancelTask taskId) := by
  simp only [LawfulOp, cancelTask, Program.holds_bind, Program.holds_lift,
    Program.holds_current, Program.holds_commit, Program.holds_send]
  intro _ _ rows gathered
  refine ⟨.rewrite (.gather gathered ?_), trivial⟩
  intro materialId _ written cancelled
  simp only [cancelMaterial, bind_eq_ok, Store.material_eq_ok] at cancelled
  obtain ⟨stored, found, cancelled⟩ := cancelled
  obtain rfl := holds.materialKeyed found
  split at cancelled
  case isFalse => exact Except.ok.inj cancelled ▸ .nil
  case isTrue pending =>
    obtain rfl := Except.ok.inj cancelled
    have nameless := holds.nameless found (by rintro ready; simp [ready] at pending)
    exact .of_nameless (m := cancelledMaterial stored) holds found nameless nameless
      (by simp [cancelledMaterial])
      (.revised (by simp [cancelledMaterial]) (by simp [cancelledMaterial]) rfl rfl)

theorem retryTask_lawful (holds : Published store) (now : Nat) (taskId : Id) :
    LawfulOp fresh store (retryTask now taskId) := by
  simp only [LawfulOp, retryTask, Program.holds_bind, Program.holds_lift, Program.holds_refuse,
    Program.holds_current, Program.holds_commit]
  intro task _ _
  have erases : Rewrite fresh store [.eraseConsent taskId] := .of_plain (by simp [Row.isPlain])
  refine ⟨.rewrite erases, fun rows gathered => ⟨.rewrite (.gather gathered ?_), trivial⟩⟩
  replace holds := erases.withdraws.published holds
  intro materialId _ written retried
  simp only [retryMaterial, bind_eq_ok, Store.material_eq_ok] at retried
  obtain ⟨stored, found, retried⟩ := retried
  obtain rfl := holds.materialKeyed found
  split at retried
  case isFalse => exact Except.ok.inj retried ▸ .nil
  case isTrue =>
    obtain ⟨revoked, revokes, retried⟩ := bind_eq_ok.mp retried
    obtain rfl := Except.ok.inj retried
    exact .of_revokedResult (m := retriedMaterial stored) holds found revokes rfl
      (by simp [retriedMaterial])
      (.revised (by simp [retriedMaterial]) (by simp [retriedMaterial]) rfl rfl)

theorem revokeMaterial_lawful (holds : Published store) (materialId : Id) :
    LawfulOp fresh store (revokeMaterial materialId) := by
  simp only [LawfulOp, revokeMaterial, Program.holds_bind, Program.holds_lift,
    Program.holds_current, Program.holds_commit, Program.holds_send, Store.material_eq_ok]
  intro stored found revoked revokes
  obtain rfl := holds.materialKeyed found
  exact ⟨.rewrite (.of_revokedResult (m := revokedMaterial stored) holds found revokes rfl
    (by simp [revokedMaterial])
    (.revised (by simp [revokedMaterial]) (by simp [revokedMaterial]) rfl rfl)), trivial⟩

theorem consent_lawful (holds : Published store) (unused : Unused fresh store) (services : Services) (now : Nat)
    {consentId : Id} (isFresh : consentId ∈ fresh) (taskId providerId : Id)
    (model purpose : String) (apiKey : Except Error Unit) :
    LawfulOp fresh store
      (consent services now consentId taskId providerId model purpose apiKey) := by
  simp only [LawfulOp, consent, Program.holds_bind, Program.holds_lift, Program.holds_refuse,
    Program.holds_current, Program.holds_commit]
  intro _ _ _ _ _ _ _ _ pending gathered _
  refine ⟨.consent ?_ isFresh rfl (fun found same => unused.consent found (same ▸ isFresh)), trivial⟩
  · refine gather_induction
      (fun pending : List ((Id × Nat × String) × Row) =>
        Rewrite fresh store (pending.map Prod.snd)) .nil
      (fun first second => by simpa using first.append second) gathered ?_
    intro materialId _ written waits
    simp only [consentMaterial, bind_eq_ok, Store.material_eq_ok] at waits
    obtain ⟨stored, found, _, -, waits⟩ := waits
    obtain rfl := holds.materialKeyed found
    split at waits
    case isFalse => exact Except.ok.inj waits ▸ .nil
    case isTrue waiting =>
      obtain rfl := Except.ok.inj waits
      have nameless := holds.nameless found (by rintro ready; simp [ready] at waiting)
      exact .of_nameless (m := requeuedMaterial stored) holds found nameless nameless
        (by simp [requeuedMaterial]) (.requeued waiting)

/-! ### Dictionaries and reviews -/

/-- A dictionary update revokes the named result under its own identifier. -/
theorem revokedForDictionary_eq (holds : Published store) (resultId : Option Id) :
    revokedForDictionary store resultId = revokedResult store resultId := by
  cases resultId with
  | none => rfl
  | some id =>
      cases found : store.results.get id with
      | none => simp [revokedForDictionary, revokedResult, Store.require, presentOr, found, bind,
          Except.bind]
      | some r =>
          have keyed := holds.resultKeyed found
          simp [revokedForDictionary, revokedResult, Store.require, presentOr, found, bind,
            Except.bind, keyed]

/-- The row of one material in a dictionary update. -/
theorem reanalyzed_rewrite (holds : Published store) {stored : Material} {revoked : List Row}
    (found : store.materials.get stored.id = some stored)
    (revokes : revokedResult store stored.resultId = .ok revoked) :
    Rewrite fresh store (revoked ++ [.material stored.id (reanalyzed stored)]) := by
  by_cases stopped : stored.status ∈ [Status.cancelled, .revoked]
  · have written : reanalyzed stored = { stored with resultId := none } := if_pos stopped
    rw [written]
    refine .of_revokedResult (m := { stored with resultId := none }) holds found revokes rfl ?_
      (.kept stopped)
    intro ready
    replace ready : stored.status = .ready := ready
    simp [ready] at stopped
  · have move : Move fresh stored.id (some stored) (reanalyzed stored) := by
      simp only [reanalyzed, if_neg stopped]
      exact .revised (by simp) (by simp) rfl rfl
    simpa using Rewrite.of_revokedResult (m := reanalyzed stored) holds (by simpa using found)
      revokes (by simp [reanalyzed, stopped]) (by simp [reanalyzed, stopped]) (by simpa using move)

/-- Rows which reanalyse every material that they write. -/
def Reanalyses (store : Store) (rows : List Row) : Prop :=
  ∀ id m, .material id m ∈ rows → ∃ before, store.materials.get id = some before ∧
    m = reanalyzed before

/-- The loop of a dictionary update rewrites every listed material of the group. -/
theorem reanalyzeGroup_holds (holds : Published store) (groupId : Id)
    {guarantee : Store → List Row → Prop} {post : List Row → Store → Prop} {state : Store}
    {listed : List (Id × Material)}
    (stored : ∀ entry ∈ listed, store.materials.get entry.1 = some entry.2)
    (after : ∀ rows, Rewrite fresh store rows → Reanalyses store rows →
      (∀ entry ∈ listed, entry.2.groupId = groupId → ∃ m, .material entry.1 m ∈ rows) →
      post rows state) :
    (reanalyzeGroup store groupId listed).Holds Store.putMany guarantee post state := by
  induction listed generalizing post with
  | nil => exact after [] .nil (fun _ _ member => by cases member) (by simp)
  | cons entry rest inductionHypothesis =>
      obtain ⟨id, m⟩ := entry
      have found : store.materials.get id = some m := stored _ List.mem_cons_self
      have restStored : ∀ other ∈ rest, store.materials.get other.1 = some other.2 :=
        fun other member => stored other (List.mem_cons_of_mem _ member)
      obtain rfl := holds.materialKeyed found
      by_cases belongs : m.groupId = groupId
      · simp only [reanalyzeGroup, if_pos belongs, Program.holds_bind, Program.holds_send,
          Program.holds_lift, revokedForDictionary_eq holds]
        intro revoked revokes
        refine inductionHypothesis restStored fun others rewrites reanalyses covers => ?_
        refine after _ ((reanalyzed_rewrite holds found revokes).append rewrites) ?_ ?_
        · intro other written member
          rcases List.mem_append.mp member with own | inOthers
          · obtain ⟨rfl, rfl⟩ : other = m.id ∧ written = reanalyzed m := by
              rcases revokedResult_eq_ok.mp revokes with ⟨-, rfl⟩ | ⟨_, _, -, -, rfl⟩ <;>
                simpa using own
            exact ⟨m, found, rfl⟩
          · exact reanalyses other written inOthers
        intro other member otherBelongs
        rcases List.mem_cons.mp member with rfl | inRest
        · exact ⟨_, List.mem_append_left _ (List.mem_append_right _ List.mem_cons_self)⟩
        · obtain ⟨written, row⟩ := covers other inRest otherBelongs
          exact ⟨written, List.mem_append_right _ row⟩
      · simp only [reanalyzeGroup, if_neg belongs]
        refine inductionHypothesis restStored fun others rewrites reanalyses covers => ?_
        refine after _ rewrites reanalyses fun other member otherBelongs => ?_
        rcases List.mem_cons.mp member with rfl | inRest
        · exact absurd otherBelongs belongs
        · exact covers other inRest otherBelongs

/-- A changed group together with rows for all of its materials. -/
theorem Rewrite.cons_group {rows : List Row} (rewrites : Rewrite fresh store rows) {groupId : Id}
    {g : Group} (stored : (store.groups.get groupId).isSome)
    (covers : ∀ {id m}, store.materials.get id = some m → m.groupId = groupId →
      ∃ written, .material id written ∈ rows) :
    Rewrite fresh store (.group groupId g :: rows) where
  withdraws := {
    material := fun member => rewrites.withdraws.material (by simpa using member)
    taken := by
      intro id m before resultId member found names
      obtain ⟨r, row⟩ := rewrites.withdraws.taken (by simpa using member) found names
      exact ⟨r, List.mem_cons_of_mem _ row⟩
    result := by
      intro id r member
      obtain ⟨keyed, revoked, before, m, found, row⟩ :=
        rewrites.withdraws.result (by simpa using member)
      exact ⟨keyed, revoked, before, m, found, List.mem_cons_of_mem _ row⟩
    group := by
      intro otherId other id before resultId member found belongs names
      rcases List.mem_cons.mp member with same | inRest
      · obtain ⟨rfl, -⟩ : otherId = groupId ∧ other = g := by simpa using same
        obtain ⟨written, row⟩ := covers found belongs
        exact ⟨written, List.mem_cons_of_mem _ row⟩
      · obtain ⟨written, row⟩ := rewrites.withdraws.group inRest found belongs names
        exact ⟨written, List.mem_cons_of_mem _ row⟩ }
  moves := fun member => rewrites.moves (by simpa using member)
  consents := fun member => rewrites.consents (by simpa using member)
  stages := fun member => rewrites.stages (by simpa using member)
  groups := by
    intro id other member
    rcases List.mem_cons.mp member with same | inRest
    · obtain ⟨rfl, -⟩ : id = groupId ∧ other = g := by simpa using same
      exact .inr stored
    · exact rewrites.groups inRest

theorem Rewrite.results_absent {rows : List Row} (rewrites : Rewrite fresh store rows) {id : Id}
    (absent : store.results.get id = none) : (store.putMany rows).results.get id = none := by
  rw [results_putMany_of_absent, absent]
  intro r member
  obtain ⟨-, -, other, -, found, -⟩ := rewrites.withdraws.result member
  simp [absent] at found

/-- A dictionary update commits one rewrite, which reanalyses materials. -/
theorem updateDictionaryLocked_holds (holds : Published store) (services : Services)
    (groupId : Id) (entries : List DictionaryEntry) {guarantee : Store → List Row → Prop}
    {post : Unit → Store → Prop}
    (after : ∀ rows, Rewrite fresh store rows → Reanalyses store rows →
      guarantee store rows ∧ post () (store.putMany rows)) :
    (updateDictionaryLocked services groupId entries).Holds Store.putMany guarantee post
      store := by
  simp only [updateDictionaryLocked, Program.holds_bind, Program.holds_lift,
    Program.holds_refuse, Program.holds_current, Program.holds_commit, Store.require_eq_ok]
  intro _ _ _ group found _ _
  refine reanalyzeGroup_holds holds groupId (fun entry member => Table.mem_rows.mp member)
    fun rows (rewrites : Rewrite fresh store rows) reanalyses covers => ?_
  have changes := rewrites.cons_group
    (g := { group with entries := entries, dictionaryRevision := group.dictionaryRevision + 1 })
    (by simp [found]) (fun stored belongs => covers _ (Table.mem_rows.mpr stored) belongs)
  exact after _ changes fun id m member => reanalyses id m (by simpa using member)

theorem setDictionary_lawful (holds : Published store) (services : Services) (groupId : Id)
    (entries : List DictionaryEntry) :
    LawfulOp fresh store (updateDictionaryLocked services groupId entries) :=
  updateDictionaryLocked_holds holds services groupId entries fun _ rewrites _ =>
    ⟨.rewrite rewrites, trivial⟩

/-- `publicationRows` brings a result exactly when the analysis needs no review and
passes both checks. -/
theorem publicationRows_eq_ok {services : Services} {now : Nat} {resultId : Id} {m : Material}
    {g : Group} {analysis : Analysis} {rows : List Row} :
    publicationRows services now resultId m g analysis = .ok rows ↔
      (analysis.needsReview = true ∧ rows = []) ∨
      (analysis.needsReview = false ∧ services.validateAnalysis analysis = .ok () ∧
        services.verifyAnalysisSource m.originalText analysis = .ok () ∧
        rows = [.result resultId (publishedResult services now resultId m g analysis)]) := by
  change _ ↔ _ ∨ (_ ∧ _ ∧ _ ∧ rows = [.result
    (publishedResult services now resultId m g analysis).id _])
  unfold publicationRows
  cases analysis.needsReview with
  | true => simp [eq_comm]
  | false =>
      cases services.validateAnalysis analysis with
      | error error => simp [textResultAs, bind, Except.bind]
      | ok _ =>
          cases services.verifyAnalysisSource m.originalText analysis with
          | error error => simp [textResultAs, bind, Except.bind]
          | ok _ => simp [textResultAs, bind, Except.bind, eq_comm]

/-- What `finish_locked` commits: a material in review without a result, or a ready
material with a new one. -/
theorem finishLocked_holds {services : Services} {now : Nat} {resultId : Id} {m : Material}
    {g : Group} {analysis : Analysis} {waiting : Bool}
    {guarantee : Store → List Row → Prop} {post : Unit → Store → Prop}
    (reviewed : ∀ revoked, analysis.needsReview = true →
      revokedResult store m.resultId = .ok revoked →
      let finished := finishedMaterial resultId m g analysis waiting
      let rows := revoked ++ [.material finished.id finished]
      guarantee store rows ∧ post () (store.putMany rows))
    (published : ∀ revoked, analysis.needsReview = false →
      services.validateAnalysis analysis = .ok () →
      services.verifyAnalysisSource m.originalText analysis = .ok () →
      revokedResult store m.resultId = .ok revoked →
      let result := publishedResult services now resultId m g analysis
      let finished := finishedMaterial resultId m g analysis waiting
      let rows := revoked ++ [.result result.id result] ++ [.material finished.id finished]
      guarantee store rows ∧ post () (store.putMany rows)) :
    (finishLocked services now resultId m g analysis waiting).Holds Store.putMany guarantee post
      store := by
  simp only [finishLocked, Program.holds_bind, Program.holds_current, Program.holds_lift,
    Program.holds_commit]
  intro revoked revokes rows checked
  rcases publicationRows_eq_ok.mp checked with ⟨review, rfl⟩ | ⟨ready, valid, verified, rfl⟩
  · simpa using reviewed revoked review revokes
  · exact published revoked ready valid verified revokes

theorem finishedMaterial_review {resultId : Id} {m : Material} {g : Group} {analysis : Analysis}
    {waiting : Bool} (review : analysis.needsReview = true) :
    let finished := finishedMaterial resultId m g analysis waiting
    finished.resultId = none ∧
      finished.status = (if waiting then .awaitingConsent else .needsReview) := by
  simp [finishedMaterial, review]

@[simp] theorem finishedMaterial_id (resultId : Id) (m : Material) (g : Group)
    (analysis : Analysis) (waiting : Bool) :
    (finishedMaterial resultId m g analysis waiting).id = m.id := by
  unfold finishedMaterial
  split <;> rfl

@[simp] theorem finishedMaterial_revision (resultId : Id) (m : Material) (g : Group)
    (analysis : Analysis) (waiting : Bool) :
    (finishedMaterial resultId m g analysis waiting).revision = m.revision := by
  unfold finishedMaterial
  split <;> rfl

@[simp] theorem finishedMaterial_taskId (resultId : Id) (m : Material) (g : Group)
    (analysis : Analysis) (waiting : Bool) :
    (finishedMaterial resultId m g analysis waiting).taskId = m.taskId := by
  unfold finishedMaterial
  split <;> rfl

@[simp] theorem finishedMaterial_groupId (resultId : Id) (m : Material) (g : Group)
    (analysis : Analysis) (waiting : Bool) :
    (finishedMaterial resultId m g analysis waiting).groupId = m.groupId := by
  unfold finishedMaterial
  split <;> rfl

theorem finishedMaterial_stopped (resultId : Id) (m : Material) (g : Group)
    (analysis : Analysis) (waiting : Bool) :
    (finishedMaterial resultId m g analysis waiting).status ≠ .running := by
  unfold finishedMaterial
  split
  · cases waiting <;> simp
  · simp

/-- The publication which `finish_locked` commits over a stored material. -/
theorem finishLocked_publication {services : Services} {now : Nat} {resultId : Id}
    {stored m : Material} {g : Group} {analysis : Analysis} {waiting : Bool} {revoked : List Row}
    (ready : analysis.needsReview = false) (found : store.materials.get m.id = some stored)
    (revokes : revokedResult store stored.resultId = .ok revoked)
    (unused : store.results.get resultId = none)
    (group : ∃ current, store.groups.get m.groupId = some current ∧
      g.dictionaryRevision = current.dictionaryRevision) :
    Publication store stored (finishedMaterial resultId m g analysis waiting)
      (publishedResult services now resultId m g analysis) revoked where
  found := by simpa using found
  revokes := revokes
  resultId := by simp [finishedMaterial, ready, publishedResult]
  status := by simp [finishedMaterial, ready]
  fresh := unused
  owner := by simp [publishedResult]
  revision := by simp [publishedResult]
  group := by simpa [publishedResult] using group

theorem Move.groupId_eq {id : Id} {before m : Material} (move : Move fresh id (some before) m) :
    m.groupId = before.groupId := by
  cases move with
  | revised later stopped task group => exact group
  | requeued waiting => rfl
  | kept stopped => rfl

/-- What `review` knows after it may have changed the dictionary. -/
structure Reviewable (materialId resultId : Id) (m : Material) (g : Group) (store : Store) :
    Prop where
  published : Published store
  unused : store.results.get resultId = none
  material : store.materials.get materialId = some m
  group : store.groups.get m.groupId = some g

/-- Two versions of one material with the same source. -/
structure SameSource (before m : Material) : Prop where
  id : m.id = before.id
  originalText : m.originalText = before.originalText
  sourceSha256 : m.sourceSha256 = before.sourceSha256

theorem SameSource.reanalyzed (m : Material) : SameSource m (Workspace.reanalyzed m) := by
  unfold Workspace.reanalyzed
  split <;> exact ⟨rfl, rfl, rfl⟩

theorem reviewDictionary_holds {services : Services} {materialId resultId : Id} {before : Material}
    {g : Group} {aiFindings : Option (List AiFinding)} {request : ReviewRequest}
    (reviewable : Reviewable materialId resultId before g store)
    {guarantee : Store → List Row → Prop} {post : Material × Group → Store → Prop}
    (commits : ∀ rows, Rewrite fresh store rows → guarantee store rows)
    (after : ∀ m g store, SameSource before m → Reviewable materialId resultId m g store →
      post (m, g) store) :
    (reviewDictionary services materialId before g aiFindings request).Holds Store.putMany
      guarantee post store := by
  unfold reviewDictionary
  split
  · exact after before g store ⟨rfl, rfl, rfl⟩ reviewable
  · simp only [Program.holds_bind, Program.holds_lift, Program.holds_current, Program.holds_pure,
      Store.require_eq_ok, Store.material_eq_ok]
    intro _ _
    refine updateDictionaryLocked_holds reviewable.published _ _ _
      fun rows (rewrites : Rewrite fresh store rows) reanalyses => ⟨commits rows rewrites, ?_⟩
    intro group groupFound changed changedFound
    have sameGroup : changed.groupId = before.groupId := by
      rcases materials_putMany_cases changedFound with member | ⟨stored, -⟩
      · have move := rewrites.moves member
        rw [reviewable.material] at move
        exact move.groupId_eq
      · rw [Option.some.inj (stored.symm.trans reviewable.material)]
    have sameSource : SameSource before changed := by
      rcases materials_putMany_cases changedFound with member | ⟨stored, -⟩
      · obtain ⟨written, found, rfl⟩ := reanalyses _ _ member
        rw [← Option.some.inj (found.symm.trans reviewable.material)]
        exact .reanalyzed written
      · rw [Option.some.inj (stored.symm.trans reviewable.material)]
        exact ⟨rfl, rfl, rfl⟩
    exact after changed group _ sameSource {
      published := rewrites.withdraws.published reviewable.published
      unused := rewrites.results_absent reviewable.unused
      material := changedFound
      group := sameGroup ▸ groupFound }

/-- The stage record of a review ends the stage of a material that nobody processes. -/
theorem saveReviewedStage_lawful {now : Nat} {materialId : Id} {m stored : Material}
    (found : store.materials.get materialId = some stored) (stopped : stored.status ≠ .running)
    (stage : Option AiStageRecord) :
    LawfulOp fresh store (saveReviewedStage now materialId m stage) := by
  cases stage with
  | none => trivial
  | some record =>
      refine ⟨.rewrite ⟨⟨by simp, by simp, by simp, by simp⟩, by simp, by simp, ?_, by simp⟩, trivial⟩
      intro id written member
      obtain ⟨rfl, rfl⟩ : id = materialId ∧ written = reviewedStage now m record := by
        simpa using member
      exact ⟨rfl, stored, found, stopped⟩

theorem review_lawful (holds : Published store) (services : Services) (now : Nat)
    {resultId : Id} (isFresh : resultId ∈ fresh) (unused : store.results.get resultId = none)
    (materialId : Id) (request : ReviewRequest) :
    LawfulOp fresh store (review services now resultId materialId request) := by
  simp only [LawfulOp, review, Program.holds_bind, Program.holds_lift, Program.holds_refuse,
    Program.holds_current, Store.material_eq_ok, Store.require_eq_ok]
  rintro before found _ _ ⟨aiFindings, stage⟩ _ group groupFound
  refine reviewDictionary_holds ⟨holds, unused, found, groupFound⟩ (fun _ => .rewrite) ?_
  clear holds unused found groupFound
  rintro m g store _ ⟨holds, unused, found, groupFound⟩ analysis _
  obtain rfl := holds.materialKeyed found
  have later : m.revision <
      (finishedMaterial resultId (reviewedMaterial m request) g analysis false).revision := by simp
  have stopped := finishedMaterial_stopped resultId (reviewedMaterial m request) g analysis false
  refine finishLocked_holds ?_ ?_
  · intro revoked review (revokes : revokedResult store m.resultId = .ok revoked)
    refine ⟨.rewrite ?_, saveReviewedStage_lawful ?_ stopped stage⟩
    · obtain ⟨nameless, status⟩ := finishedMaterial_review (m := reviewedMaterial m request) review
      exact .of_revokedResult holds (by simpa using found) revokes nameless
        (by simp [status]) (.revised later stopped (by simp) (by simp))
    · simp [Store.putMany_append, Store.writeRow]
  · intro revoked ready _ _ (revokes : revokedResult store m.resultId = .ok revoked)
    refine ⟨?_, saveReviewedStage_lawful ?_ stopped stage⟩
    · exact .publish (finishLocked_publication ready (by simpa using found) revokes unused
        ⟨g, by simpa using groupFound, rfl⟩) isFresh later (by simp)
    · simp [Store.putMany_append, Store.writeRow]

end Requests

end LawyerAssistance.Workspace

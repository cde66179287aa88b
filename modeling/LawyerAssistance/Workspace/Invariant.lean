import LawyerAssistance.Workspace.Attempt
import LawyerAssistance.Workspace.System

/-!
# The invariant of the service

`Sound` holds of every reachable world: materials and results are related by
`Published`, everything stored was issued, and every worker carries a claimed revision.
Each kind of event is inverted once, in `step_cases`, and each kind of program has one
guarantee: `Lawful` for requests, `AttemptRows` for workers, and the two small ones of
this module for the claim and for the recovery.
-/

namespace LawyerAssistance.Workspace

open PrivacyText

/-! ## Claims and recovery -/

/-- The transaction of a claim. -/
inductive ClaimRows (store : Store) : List Row → Prop where
  | claim {m : Material} {g : Group} (found : store.materials.get m.id = some m)
      (queued : m.status = .queued) :
      ClaimRows store [.material m.id (claimedMaterial m g)]

/-- The transactions of the recovery. -/
inductive RecoveryRows (store : Store) : List Row → Prop where
  | requeue {m : Material} (found : store.materials.get m.id = some m)
      (running : m.status = .running) :
      RecoveryRows store [.material m.id (recoveredMaterial store m)]
  | interrupt {m : Material} {record : AiStageRecord} (found : store.materials.get m.id = some m)
      (recorded : store.aiStages.get m.id = some record) (running : record.stage.isRunning = true)
      (current : stageIsCurrent record m) :
      RecoveryRows store [.material m.id (interruptedMaterial m)]
  | stage {record : AiStageRecord} (now : Nat)
      (recorded : store.aiStages.get record.materialId = some record)
      (stored : (store.materials.get record.materialId).isSome)
      (outdated : ∀ m, store.materials.get record.materialId = some m → ¬ stageIsCurrent record m) :
      RecoveryRows store [.aiStage record.materialId (interruptedStage now record)]

/-- A material is never removed. -/
theorem materials_putMany_isSome {store : Store} {rows : List Row} {id : Id}
    (stored : (store.materials.get id).isSome) :
    ((store.putMany rows).materials.get id).isSome := by
  rcases materialKind.get_putMany_cases store rows id with
    ⟨last, member, final, key, left⟩ | ⟨-, kept⟩
  · change (store.putMany rows).materials.get id = final at left
    obtain ⟨body, rfl⟩ : ∃ body, final = some body := by
      cases last <;> simp_all [materialKind]
      exact ⟨_, key.2.symm⟩
    simp [left]
  · change (store.putMany rows).materials.get id = store.materials.get id at kept
    rwa [kept]

/-- One queued material without a result gets another state without a result. -/
theorem withdrawal_of_nameless {store : Store} (holds : Published store) {stored m : Material}
    (found : store.materials.get m.id = some stored) (waiting : stored.status ≠ .ready)
    (result : m.resultId = stored.resultId) (unready : m.status ≠ .ready) :
    Withdrawal store [.material m.id m] := by
  have unnamed := holds.nameless found waiting
  exact withdrawal_of_revokedResult holds found (by rw [unnamed]; rfl) (result.trans unnamed) unready

theorem ClaimRows.withdraws {store : Store} {rows : List Row} (claim : ClaimRows store rows)
    (holds : Published store) : Withdrawal store rows := by
  cases claim with
  | @claim m g found queued =>
      exact withdrawal_of_nameless (m := claimedMaterial m g) holds found (by simp [queued]) rfl
        (by simp [claimedMaterial])

/-- The consent of the task records a use for the material. -/
def ConsentUsed (store : Store) (m : Material) : Prop :=
  ∃ c, store.consents.get m.taskId = some c ∧ m.id ∈ c.usedMaterials

/-- A recovered material waits in the queue, or in review when its consent was used. -/
theorem recoveredMaterial_cases (store : Store) (m : Material) :
    (ConsentUsed store m ∧ recoveredMaterial store m =
        { m with status := .needsReview, reasonCode := some "cloud_dispatch_interrupted" }) ∨
      (¬ ConsentUsed store m ∧ recoveredMaterial store m = { m with status := .queued }) := by
  unfold recoveredMaterial ConsentUsed
  cases store.consents.get m.taskId with
  | none => exact .inr ⟨by simp, rfl⟩
  | some consent =>
    by_cases used : m.id ∈ consent.usedMaterials
    · exact .inl ⟨⟨consent, rfl, used⟩, by simp [used]⟩
    · exact .inr ⟨by simp [used], by simp [used]⟩

@[simp] theorem recoveredMaterial_id (store : Store) (m : Material) :
    (recoveredMaterial store m).id = m.id := by
  rcases recoveredMaterial_cases store m with ⟨-, same⟩ | ⟨-, same⟩ <;> rw [same]

@[simp] theorem recoveredMaterial_resultId (store : Store) (m : Material) :
    (recoveredMaterial store m).resultId = m.resultId := by
  rcases recoveredMaterial_cases store m with ⟨-, same⟩ | ⟨-, same⟩ <;> rw [same]

@[simp] theorem recoveredMaterial_revision (store : Store) (m : Material) :
    (recoveredMaterial store m).revision = m.revision := by
  rcases recoveredMaterial_cases store m with ⟨-, same⟩ | ⟨-, same⟩ <;> rw [same]

theorem recoveredMaterial_status (store : Store) (m : Material) :
    (recoveredMaterial store m).status ∈ [Status.queued, .needsReview] := by
  rcases recoveredMaterial_cases store m with ⟨-, same⟩ | ⟨-, same⟩ <;> simp [same]

theorem stageIsCurrent.unsettled {record : AiStageRecord} {m : Material}
    (current : stageIsCurrent record m) : m.status = .running ∨ m.status = .queued := by
  simpa using current.2.2

theorem RecoveryRows.withdraws {store : Store} {rows : List Row} (recovers : RecoveryRows store rows)
    (holds : Published store) : Withdrawal store rows := by
  cases recovers with
  | stage => exact ⟨by simp, by simp, by simp, by simp⟩
  | @requeue m found running =>
    rw [← recoveredMaterial_id store m] at found ⊢
    refine withdrawal_of_nameless holds found (by simp [running]) (by simp) fun ready => ?_
    simpa [ready] using recoveredMaterial_status store m
  | @interrupt m record found recorded running current =>
    refine withdrawal_of_nameless (m := interruptedMaterial m) holds found ?_ rfl
      (by simp [interruptedMaterial])
    rcases current.unsettled with running | queued
    · simp [running]
    · simp [queued]

/-- A claim takes a queued material of the store. -/
theorem claimNext_holds {store : Store} (holds : Published store) (materialId : Id)
    {post : Option (Material × Group) → Store → Prop} (none : post none store)
    (claimed : ∀ m g, store.materials.get m.id = some m → m.status = .queued →
      store.groups.get m.groupId = some g →
      post (some (claimedMaterial m g, g)) (store.putMany [.material m.id (claimedMaterial m g)])) :
    (claimNext materialId).Holds Store.putMany ClaimRows post store := by
  simp only [claimNext, Program.holds_bind, Program.holds_current, Program.holds_lift,
    Store.material_eq_ok, Store.require_eq_ok]
  intro m found g groupFound
  obtain rfl := holds.materialKeyed found
  split
  case isFalse => exact none
  case isTrue queued => exact ⟨.claim found queued, claimed m g found queued groupFound⟩

/-- The listed identifiers of a recovery are distinct and name the running materials. -/
theorem running_of_listed {store : Store} {running : List Id} (listed : running.Perm (runningIds store)) :
    running.Nodup ∧
      ∀ id, id ∈ running ↔ ∃ m, store.materials.get id = some m ∧ m.status = .running := by
  have distinct : (runningIds store).Nodup :=
    (store.materials.nodup_keys_rows).sublist (List.filter_sublist.map Prod.fst)
  refine ⟨listed.nodup_iff.mpr distinct, fun id => ?_⟩
  rw [listed.mem_iff, runningIds]
  constructor
  · intro member
    obtain ⟨⟨key, m⟩, row, rfl⟩ := List.mem_map.mp member
    obtain ⟨found, running⟩ := List.mem_filter.mp row
    exact ⟨m, Table.mem_rows.mp found, by simpa using running⟩
  · rintro ⟨m, found, running⟩
    exact List.mem_map.mpr
      ⟨(id, m), List.mem_filter.mpr ⟨Table.mem_rows.mpr found, by simp [running]⟩, rfl⟩

/-- No material of the store runs. -/
def NoneRuns (store : Store) : Prop :=
  ∀ {id m}, store.materials.get id = some m → m.status ≠ .running

/-- The running stages of a store are kept under their own materials. -/
def StagesKeyed (store : Store) : Prop :=
  ∀ {id record}, store.aiStages.get id = some record → record.stage.isRunning = true →
    record.materialId = id ∧ (store.materials.get id).isSome

/-- The first loop of the recovery, over the identifiers of the running materials. -/
theorem recoverMaterials_holds {store : Store} (holds : Published store)
    (stages : StagesKeyed store) {running : List Id} (distinct : running.Nodup)
    (areRunning : ∀ id, id ∈ running ↔ ∃ m, store.materials.get id = some m ∧ m.status = .running)
    {post : Unit → Store → Prop}
    (after : ∀ store, Published store → StagesKeyed store → NoneRuns store → post () store) :
    (recoverMaterials running).Holds Store.putMany RecoveryRows post store := by
  induction running generalizing store with
  | nil =>
    refine after store holds stages fun {id m} found running => ?_
    simpa using (areRunning id).mpr ⟨m, found, running⟩
  | cons materialId rest inductionHypothesis =>
    obtain ⟨fresh, others⟩ := List.nodup_cons.mp distinct
    simp only [recoverMaterials, Program.holds_bind, Program.holds_current, Program.holds_lift,
      Program.holds_commit, Store.material_eq_ok]
    intro m found
    obtain rfl := holds.materialKeyed found
    obtain ⟨same, sameFound, running⟩ := (areRunning _).mp List.mem_cons_self
    obtain rfl : same = m := Option.some.inj (sameFound.symm.trans found)
    have row : RecoveryRows store [.material same.id (recoveredMaterial store same)] :=
      .requeue found running
    have read : ∀ id, (store.putMany [.material same.id (recoveredMaterial store same)]
        ).materials.get id =
          if id = same.id then some (recoveredMaterial store same) else store.materials.get id :=
      fun id => Table.get_put _ _ _ _
    refine ⟨row, inductionHypothesis ((row.withdraws holds).published holds) ?_ others ?_⟩
    · intro id record recorded isRunning
      obtain ⟨keyed, stored⟩ := stages recorded isRunning
      exact ⟨keyed, materials_putMany_isSome stored⟩
    · intro id
      rw [read]
      by_cases own : id = same.id
      · subst own
        have stopped := recoveredMaterial_status store same
        refine ⟨fun member => absurd member fresh, ?_⟩
        rintro ⟨m, recovered, isRunning⟩
        obtain rfl : recoveredMaterial store same = m := by simpa using recovered
        simp [isRunning] at stopped
      · simp only [own, if_false]
        rw [← areRunning id, List.mem_cons]
        simp [own]

/-- The second loop of the recovery, over the records of the stages which run. -/
theorem recoverStages_holds {store : Store} (holds : Published store) (stopped : NoneRuns store)
    (now : Nat) {listed : List (Id × AiStageRecord)} (distinct : (listed.map Prod.fst).Nodup)
    (owned : ∀ {id record}, (id, record) ∈ listed → record.stage.isRunning = true →
      store.aiStages.get id = some record ∧ record.materialId = id ∧
        (store.materials.get id).isSome)
    (lists : ∀ {id record}, store.aiStages.get id = some record →
      record.stage.isRunning = true → (id, record) ∈ listed) :
    (recoverStages now listed).Holds Store.putMany RecoveryRows
      (fun _ after => NoneRuns after ∧
        ∀ {id record}, after.aiStages.get id = some record → record.stage.isRunning = false)
      store := by
  induction listed generalizing store with
  | nil =>
    rw [recoverStages, Program.holds_pure]
    refine ⟨stopped, fun {id record} found => ?_⟩
    by_contra running
    simpa using lists found (by simpa using running)
  | cons entry rest inductionHypothesis =>
    obtain ⟨key, record⟩ := entry
    obtain ⟨fresh, others⟩ := List.nodup_cons.mp distinct
    by_cases running : record.stage.isRunning = true
    · obtain ⟨recorded, rfl, present⟩ := owned List.mem_cons_self running
      obtain ⟨m, found⟩ := Option.isSome_iff_exists.mp present
      have keyed := holds.materialKeyed found
      simp only [recoverStages, running, if_true, Program.holds_bind, Program.holds_current, found]
      -- The record of the stage is replaced last, when its material is in review already.
      have ends : ∀ {middle : Store}, Published middle → NoneRuns middle →
          middle.aiStages = store.aiStages →
          (∀ id, (store.materials.get id).isSome → (middle.materials.get id).isSome) →
          (∀ m, middle.materials.get record.materialId = some m → ¬ stageIsCurrent record m) →
          RecoveryRows middle [.aiStage record.materialId (interruptedStage now record)] ∧
            (recoverStages now rest).Holds Store.putMany RecoveryRows
              (fun _ after => NoneRuns after ∧ ∀ {id record},
                after.aiStages.get id = some record → record.stage.isRunning = false)
              (middle.putMany [.aiStage record.materialId (interruptedStage now record)]) := by
        intro middle middleHolds middleStopped sameStages kept outdated
        have row : RecoveryRows middle [.aiStage record.materialId (interruptedStage now record)] :=
          .stage now (by rw [sameStages, recorded]) (kept _ present) outdated
        have read : ∀ id, (middle.putMany [.aiStage record.materialId (interruptedStage now record)]
            ).aiStages.get id = if id = record.materialId then some (interruptedStage now record)
              else store.aiStages.get id := by
          intro id
          rw [← sameStages]
          exact Table.get_put _ _ _ _
        refine ⟨row, inductionHypothesis ((row.withdraws middleHolds).published middleHolds)
          middleStopped others ?_ ?_⟩
        · intro id other member isRunning
          obtain ⟨before, own, stored⟩ := owned (List.mem_cons_of_mem _ member) isRunning
          have different : id ≠ record.materialId := by
            rintro rfl
            exact fresh (List.mem_map.mpr ⟨_, member, rfl⟩)
          exact ⟨by rw [read, if_neg different, before], own, kept id stored⟩
        · intro id other otherFound isRunning
          rw [read] at otherFound
          split at otherFound
          · obtain rfl := Option.some.inj otherFound
            cases isRunning
          · rename_i different
            rcases List.mem_cons.mp (lists otherFound isRunning) with same | member
            · exact absurd (Prod.mk.inj same).1 different
            · exact member
      unfold saveInterrupted
      split
      case isTrue isCurrent =>
        have row : RecoveryRows store [.material m.id (interruptedMaterial m)] :=
          .interrupt (keyed ▸ found) (keyed ▸ recorded) running isCurrent
        have read : ∀ id, (store.putMany [.material m.id (interruptedMaterial m)]
            ).materials.get id =
              if id = m.id then some (interruptedMaterial m) else store.materials.get id :=
          fun id => Table.get_put _ _ _ _
        simp only [Program.holds_commit]
        refine ⟨row, ends ((row.withdraws holds).published holds) ?_ rfl
          (fun _ => materials_putMany_isSome) ?_⟩
        · intro id other otherFound
          rw [read] at otherFound
          split at otherFound
          · obtain rfl := Option.some.inj otherFound
            simp [interruptedMaterial]
          · exact stopped otherFound
        · intro other otherFound isCurrent
          rw [read, if_pos keyed.symm] at otherFound
          obtain rfl := Option.some.inj otherFound
          simpa [interruptedMaterial] using isCurrent.unsettled
      case isFalse outdated =>
        simp only [Program.holds_commit, Program.holds_pure]
        refine ends holds stopped rfl (fun _ stored => stored) fun other otherFound => ?_
        rwa [Option.some.inj (otherFound.symm.trans found)]
    · simp only [recoverStages, running]
      refine inductionHypothesis holds stopped others
        (fun member => owned (List.mem_cons_of_mem _ member)) fun {id other} found isRunning => ?_
      rcases List.mem_cons.mp (lists found isRunning) with same | member
      · obtain ⟨-, rfl⟩ := Prod.mk.inj same
        exact absurd isRunning running
      · exact member

/-- The recovery of a store whose running materials are listed leaves no material and no
stage running. -/
theorem recovery_holds {store : Store} (holds : Published store) (stages : StagesKeyed store)
    (now : Nat) {running : List Id} (listed : running.Perm (runningIds store)) :
    (recovery now running).Holds Store.putMany RecoveryRows
      (fun _ after => NoneRuns after ∧
        ∀ {id record}, after.aiStages.get id = some record → record.stage.isRunning = false)
      store := by
  obtain ⟨distinct, areRunning⟩ := running_of_listed listed
  rw [recovery, Program.holds_bind]
  refine recoverMaterials_holds holds stages distinct areRunning ?_
  intro middle middleHolds middleStages stopped
  rw [recoverAiStages, Program.holds_bind, Program.holds_current]
  refine recoverStages_holds middleHolds stopped now (Table.nodup_keys_rows _) ?_ ?_
  · intro id record member isRunning
    have recorded := Table.mem_rows.mp member
    exact ⟨recorded, middleStages recorded isRunning⟩
  · exact fun recorded _ => Table.mem_rows.mpr recorded

/-! ## Revisions -/

/-- No material is lost and no revision goes back. -/
def Grows (before after : Store) : Prop :=
  ∀ id m, before.materials.get id = some m →
    ∃ later, after.materials.get id = some later ∧ m.revision ≤ later.revision

theorem Grows.refl (store : Store) : Grows store store := fun _ m found => ⟨m, found, le_rfl⟩

theorem Grows.trans {first second third : Store} (left : Grows first second)
    (right : Grows second third) : Grows first third := by
  intro id m found
  obtain ⟨middle, middleFound, middleLater⟩ := left id m found
  obtain ⟨last, lastFound, lastLater⟩ := right id middle middleFound
  exact ⟨last, lastFound, Nat.le_trans middleLater lastLater⟩

theorem Grows.isSome {before after : Store} (grows : Grows before after) {id : Id}
    (stored : (before.materials.get id).isSome) : (after.materials.get id).isSome := by
  obtain ⟨m, found⟩ := Option.isSome_iff_exists.mp stored
  obtain ⟨later, laterFound, -⟩ := grows _ _ found
  simp [laterFound]

/-- Rows which take no revision back. -/
theorem grows_of_rows {store : Store} {rows : List Row}
    (later : ∀ id m stored, .material id m ∈ rows → store.materials.get id = some stored →
      stored.revision ≤ m.revision) : Grows store (store.putMany rows) := by
  intro id stored found
  have present : (store.materials.get id).isSome := by simp [found]
  obtain ⟨m, laterFound⟩ := Option.isSome_iff_exists.mp (materials_putMany_isSome present)
  refine ⟨m, laterFound, ?_⟩
  rcases materials_putMany_cases laterFound with member | ⟨kept, -⟩
  · exact later id m stored member found
  · rw [Option.some.inj (kept.symm.trans found)]

theorem Move.later {fresh : List Id} {id : Id} {before m : Material}
    (move : Move fresh id (some before) m) : before.revision ≤ m.revision := by
  cases move with
  | revised later => exact Nat.le_of_lt later
  | requeued => exact le_rfl
  | kept => exact le_rfl

theorem Rewrite.later {fresh : List Id} {store : Store} {rows : List Row}
    (rewrites : Rewrite fresh store rows) {id : Id} {m stored : Material}
    (member : .material id m ∈ rows) (found : store.materials.get id = some stored) :
    stored.revision ≤ m.revision := by
  have move := rewrites.moves member
  rw [found] at move
  exact move.later

theorem Lawful.grows {fresh : List Id} {store : Store} {rows : List Row}
    (lawful : Lawful fresh store rows) : Grows store (store.putMany rows) := by
  refine grows_of_rows fun id m stored member found => ?_
  cases lawful with
  | rewrite rewrites => exact rewrites.later member found
  | consent rewrites => exact rewrites.later (by simpa using member) found
  | @publish before written r revoked publishes isFresh later task =>
      obtain ⟨rfl, rfl⟩ : id = written.id ∧ m = written := by
        rcases revokedResult_eq_ok.mp publishes.revokes with ⟨-, rfl⟩ | ⟨_, _, -, -, rfl⟩ <;>
          simpa using member
      obtain rfl : before = stored := Option.some.inj (publishes.found.symm.trans found)
      exact Nat.le_of_lt later

theorem AttemptRows.grows {fresh : List Id} {id : Id} {revision : Nat} {store : Store}
    {rows : List Row} (attempt : AttemptRows fresh id revision store rows) :
    Grows store (store.putMany rows) := by
  refine grows_of_rows fun other m stored member found => ?_
  have same : ∀ {current written : Material}, Current store id revision current →
      written.id = id → written.revision = revision → other = written.id → m = written →
      stored.revision ≤ m.revision := by
    rintro current written isCurrent rfl sameRevision rfl rfl
    rw [sameRevision, Option.some.inj (found.symm.trans isCurrent.found), isCurrent.revision]
  cases attempt with
  | stage => simp at member
  | consent => simp at member
  | move current keyed sameRevision =>
      simp only [List.mem_singleton, Row.material.injEq] at member
      exact same current keyed sameRevision member.1 member.2
  | publish current keyed sameRevision =>
      simp only [List.cons_append, List.nil_append, List.mem_cons, reduceCtorEq, false_or,
        List.not_mem_nil, or_false, Row.material.injEq] at member
      exact same current keyed sameRevision member.1 member.2

theorem ClaimRows.grows {store : Store} {rows : List Row} (claim : ClaimRows store rows) :
    Grows store (store.putMany rows) := by
  refine grows_of_rows fun id m stored member found => ?_
  cases claim with
  | @claim before g beforeFound queued =>
      obtain ⟨rfl, rfl⟩ : id = before.id ∧ m = claimedMaterial before g := by simpa using member
      rw [Option.some.inj (found.symm.trans beforeFound)]
      exact le_rfl

theorem RecoveryRows.grows {store : Store} {rows : List Row} (recovers : RecoveryRows store rows) :
    Grows store (store.putMany rows) := by
  refine grows_of_rows fun id m stored member found => ?_
  cases recovers with
  | stage => simp at member
  | @requeue before beforeFound running =>
    obtain ⟨rfl, rfl⟩ : id = before.id ∧ m = recoveredMaterial store before := by simpa using member
    rw [Option.some.inj (found.symm.trans beforeFound), recoveredMaterial_revision]
  | @interrupt before record beforeFound recorded running current =>
    obtain ⟨rfl, rfl⟩ : id = before.id ∧ m = interruptedMaterial before := by simpa using member
    rw [Option.some.inj (found.symm.trans beforeFound)]
    rfl

/-! ## Issued identifiers -/

/-- Everything stored was issued, and a running stage is kept under its own material. -/
structure Known (issued : List Id) (store : Store) : Prop where
  material : ∀ {id m}, store.materials.get id = some m → id ∈ issued
  result : ∀ {id r}, store.results.get id = some r → id ∈ issued
  group : ∀ {id g}, store.groups.get id = some g → id ∈ issued
  consent : ∀ {taskId c}, store.consents.get taskId = some c → c.id ∈ issued
  stage : StagesKeyed store

/-- Rows which keep `Known`. -/
structure KnownRows (issued : List Id) (store : Store) (rows : List Row) : Prop where
  material : ∀ {id m}, .material id m ∈ rows → id ∈ issued
  result : ∀ {id r}, .result id r ∈ rows → id ∈ issued
  group : ∀ {id g}, .group id g ∈ rows → id ∈ issued
  consent : ∀ {taskId c}, .consent taskId c ∈ rows → c.id ∈ issued
  stage : ∀ {id record}, .aiStage id record ∈ rows → record.stage.isRunning = true →
    record.materialId = id ∧ (store.materials.get id).isSome

theorem Known.putMany {issued : List Id} {store : Store} {rows : List Row}
    (known : Known issued store) (knownRows : KnownRows issued store rows) :
    Known issued (store.putMany rows) where
  material := fun found => (materials_putMany_cases found).elim knownRows.material
    fun kept => known.material kept.1
  result := fun found => (results_putMany_cases found).elim knownRows.result
    fun kept => known.result kept.1
  group := fun found => (groups_putMany_cases found).elim knownRows.group
    fun kept => known.group kept.1
  consent := fun found => (consents_putMany_cases found).elim knownRows.consent known.consent
  stage := by
    intro id record found running
    obtain ⟨keyed, stored⟩ := (aiStages_putMany_cases found).elim
      (fun member => knownRows.stage member running) (fun kept => known.stage kept.1 running)
    exact ⟨keyed, materials_putMany_isSome stored⟩

theorem Known.mono {issued more : List Id} {store : Store} (known : Known issued store)
    (subset : issued ⊆ more) : Known more store where
  material := fun found => subset (known.material found)
  result := fun found => subset (known.result found)
  group := fun found => subset (known.group found)
  consent := fun found => subset (known.consent found)
  stage := known.stage

theorem Rewrite.knownRows {fresh issued : List Id} {store : Store} {rows : List Row}
    (rewrites : Rewrite fresh store rows) (known : Known issued store) (subset : fresh ⊆ issued) :
    KnownRows issued store rows where
  material := by
    intro id m member
    have move := rewrites.moves member
    cases found : store.materials.get id with
    | some stored => exact known.material found
    | none =>
        rw [found] at move
        cases move with
        | submitted isFresh => exact subset isFresh
  result := by
    intro id r member
    obtain ⟨-, -, stored, -, found, -⟩ := rewrites.withdraws.result member
    exact known.result found
  group := by
    intro id g member
    rcases rewrites.groups member with isFresh | stored
    · exact subset isFresh
    · obtain ⟨g, found⟩ := Option.isSome_iff_exists.mp stored
      exact known.group found
  consent := fun member => absurd member rewrites.consents
  stage := by
    intro id record member running
    simp [(rewrites.stages member).1] at running

theorem Lawful.knownRows {fresh issued : List Id} {store : Store} {rows : List Row}
    (lawful : Lawful fresh store rows) (known : Known issued store) (subset : fresh ⊆ issued) :
    KnownRows issued store rows := by
  cases lawful with
  | rewrite rewrites => exact rewrites.knownRows known subset
  | @consent rows taskId c rewrites isFresh unused unstored =>
      have others := rewrites.knownRows known subset
      exact {
        material := fun member => others.material (by simpa using member)
        result := fun member => others.result (by simpa using member)
        group := fun member => others.group (by simpa using member)
        consent := by
          intro other written member
          rcases List.mem_append.mp member with inRows | new
          · exact others.consent inRows
          · obtain ⟨-, rfl⟩ : other = taskId ∧ written = c := by simpa using new
            exact subset isFresh
        stage := fun member => others.stage (by simpa using member) }
  | @publish stored m r revoked publishes isFresh later task =>
      have owned := known.material publishes.found
      rcases revokedResult_eq_ok.mp publishes.revokes with ⟨-, rfl⟩ | ⟨id, old, -, found, rfl⟩
      · constructor <;> simp_all
        exact subset isFresh
      · have revoked := known.result found
        have drawn := subset isFresh
        constructor <;> simp_all
        rintro _ _ (⟨rfl, -⟩ | ⟨rfl, -⟩)
        · exact revoked
        · exact drawn

theorem AttemptRows.knownRows {fresh issued : List Id} {id : Id} {revision : Nat} {store : Store}
    {rows : List Row} (attempt : AttemptRows fresh id revision store rows)
    (known : Known issued store) (subset : fresh ⊆ issued)
    (stored : (store.materials.get id).isSome) : KnownRows issued store rows := by
  cases attempt with
  | stage subject sameRevision => constructor <;> simp_all
  | consent current found unused =>
      have owned := known.consent found
      constructor <;> simp_all [claimedConsent]
  | move current keyed sameRevision nameless unready =>
      have owned := known.material current.found
      constructor <;> simp_all
  | publish current keyed sameRevision isFresh publishes =>
      have owned := known.material current.found
      have drawn := subset isFresh
      constructor <;> simp_all

theorem ClaimRows.knownRows {issued : List Id} {store : Store} {rows : List Row}
    (claim : ClaimRows store rows) (known : Known issued store) : KnownRows issued store rows := by
  cases claim with
  | claim found queued =>
      have owned := known.material found
      constructor <;> simp_all

theorem RecoveryRows.knownRows {issued : List Id} {store : Store} {rows : List Row}
    (recovers : RecoveryRows store rows) (known : Known issued store) :
    KnownRows issued store rows := by
  cases recovers with
  | requeue found running =>
      have owned := known.material found
      constructor <;> simp_all
  | interrupt found recorded running current =>
      have owned := known.material found
      constructor <;> simp_all
  | stage now recorded stored outdated => constructor <;> simp_all [interruptedStage, AiStage.isRunning]

/-! ## Reachable worlds -/

/-- The invariant of the service. -/
structure Sound (world : World) : Prop where
  published : Published world.store
  known : Known world.issued world.store
  carried : ∀ {process index}, world.live = some process → process.workers index ≠ .idle →
    ∃ id revision stored, Carries id revision (process.workers index) ∧
      world.store.materials.get id = some stored ∧ revision ≤ stored.revision

/-- Identifiers which are drawn fresh are used nowhere. -/
theorem Known.unused {issued fresh : List Id} {store : Store} (known : Known issued store)
    (areFresh : ∀ id ∈ fresh, id ∉ issued) : Unused fresh store where
  material := fun id isFresh => Option.eq_none_iff_forall_ne_some.mpr fun _ found =>
    areFresh id isFresh (known.material found)
  result := fun id isFresh => Option.eq_none_iff_forall_ne_some.mpr fun _ found =>
    areFresh id isFresh (known.result found)
  group := fun id isFresh => Option.eq_none_iff_forall_ne_some.mpr fun _ found =>
    areFresh id isFresh (known.group found)
  consent := fun found isFresh => areFresh _ isFresh (known.consent found)

/-- Every transaction of every request is lawful. -/
theorem Request.lawful {store : Store} (holds : Published store) (services : Services) (now : Nat)
    (request : Request) (unused : Unused request.fresh store) :
    LawfulOp request.fresh store (request.op services now) := by
  cases request with
  | createGroup => exact createGroup_lawful holds unused List.mem_cons_self _
  | createClient => exact createClient_lawful _ _ _
  | revokeClient => exact revokeClient_lawful _
  | submit => exact submit_lawful unused _ _ _ _ _ _ _ fun _ member => List.mem_cons_of_mem _ member
  | replaceMaterial => exact replaceMaterial_lawful holds _ _ _ _
  | cancelTask => exact cancelTask_lawful holds _
  | retryTask => exact retryTask_lawful holds _ _
  | review => exact review_lawful holds _ _ List.mem_cons_self (unused.result _ List.mem_cons_self) _ _
  | consent => exact consent_lawful holds unused _ _ List.mem_cons_self _ _ _ _ _
  | revokeConsent => exact revokeConsent_lawful _
  | setDictionary => exact setDictionary_lawful holds _ _ _
  | revokeMaterial => exact revokeMaterial_lawful holds _
  | saveProvider => exact saveProvider_lawful _ _

/-- What the transactions of an event keep in the store: the relation between materials
and results, the issued identifiers, and the revisions. -/
structure Kept (issued : List Id) (before store : Store) : Prop where
  published : Published store
  known : Known issued store
  grows : Grows before store

/-- Rows which keep the relation, the issued identifiers and the revisions. -/
theorem Kept.putMany {issued : List Id} {before store : Store} {rows : List Row}
    (kept : Kept issued before store) (published : Published (store.putMany rows))
    (knownRows : KnownRows issued store rows) (grows : Grows store (store.putMany rows)) :
    Kept issued before (store.putMany rows) where
  published := published
  known := kept.known.putMany knownRows
  grows := kept.grows.trans grows

/-- A claim hands out a running material without a result. -/
theorem claimNext_carries {store : Store} (holds : Published store) (materialId : Id) :
    (claimNext materialId).Holds Store.putMany ClaimRows
      (fun claimed store => match claimed with
        | some (m, _) => m.resultId = none ∧ m.status = .running ∧
            store.materials.get m.id = some m
        | none => True) store := by
  refine claimNext_holds holds materialId trivial fun m g found queued _ => ?_
  have unnamed : m.resultId = none := holds.nameless found (by simp [queued])
  exact ⟨unnamed, rfl, by simp [claimedMaterial, Store.writeRow]⟩

/-- A property of the store which the transactions of every kind of event preserve. -/
theorem Sound.store_invariant {services : Services} {pool : Nat} {world next : World} {event : Event}
    (sound : Sound world) (taken : Workspace.step services pool world event = some next)
    (invariant : Store → Prop)
    (lawful : event.isRequest → ∀ {store rows}, invariant store →
      Lawful event.fresh store rows → invariant (store.putMany rows))
    (attempt : ∀ {id revision store rows}, (world.store.materials.get id).isSome →
      invariant store → AttemptRows event.fresh id revision store rows →
      invariant (store.putMany rows))
    (claim : ∀ {store rows}, invariant store → ClaimRows store rows →
      invariant (store.putMany rows))
    (recovery : ∀ {store rows}, invariant store → RecoveryRows store rows →
      invariant (store.putMany rows))
    (holds : invariant world.store) : invariant next.store := by
  obtain ⟨⟨-, areFresh⟩, stepped⟩ := stepped_of_step taken
  cases stepped with
  | @request process now request allowed live =>
      exact (request.lawful sound.published services now
        (sound.known.unused areFresh)).run_invariant invariant (lawful trivial) holds allowed
  | @claim process index materialId allowed outcome live inPool idle executed =>
      subst executed
      exact (claimNext_carries sound.published materialId).run_invariant invariant claim holds allowed
  | @work process index now resultId answer allowed op outcome live enabled executed =>
      have working : process.workers index ≠ .idle := by
        intro idle
        simp [idle, Worker.step] at enabled
      obtain ⟨id, revision, stored, carries, found, -⟩ := sound.carried live working
      have unused := (sound.known.unused areFresh).result resultId List.mem_cons_self
      subst executed
      exact (Worker.step_holds sound.published unused carries enabled).run_invariant invariant
        (attempt (by simp [found])) holds allowed
  | crash live => exact holds
  | @start now running allowed outcome stopped listed executed =>
      subst executed
      exact (recovery_holds sound.published sound.known.stage now listed).run_invariant invariant
        recovery holds allowed

/-- An event issues the identifiers which it draws, and keeps the issued ones. -/
theorem issued_of_step {services : Services} {pool : Nat} {world next : World} {event : Event}
    (taken : step services pool world event = some next) :
    event.fresh ⊆ next.issued ∧ world.issued ⊆ next.issued := by
  cases (stepped_of_step taken).2 with
  | request => exact ⟨List.subset_append_left _ _, List.subset_append_right _ _⟩
  | claim => exact ⟨List.nil_subset _, List.Subset.refl _⟩
  | work => exact ⟨List.subset_append_left _ _, List.subset_append_right _ _⟩
  | crash => exact ⟨List.nil_subset _, List.Subset.refl _⟩
  | start => exact ⟨List.nil_subset _, List.Subset.refl _⟩

/-- What every event keeps in the store. -/
theorem Sound.kept {services : Services} {pool : Nat} {world next : World} {event : Event}
    (sound : Sound world) (taken : Workspace.step services pool world event = some next) :
    Kept next.issued world.store next.store := by
  obtain ⟨subset, issued⟩ := issued_of_step taken
  refine sound.store_invariant taken (Kept next.issued world.store) ?_ ?_ ?_ ?_
    ⟨sound.published, sound.known.mono issued, .refl _⟩
  · exact fun _ _ _ kept lawful => kept.putMany (lawful.published kept.published)
      (lawful.knownRows kept.known subset) lawful.grows
  · exact fun stored kept attempt => kept.putMany (attempt.published kept.published)
      (attempt.knownRows kept.known subset (kept.grows.isSome stored)) attempt.grows
  · exact fun kept claim => kept.putMany ((claim.withdraws kept.published).published kept.published)
      (claim.knownRows kept.known) claim.grows
  · exact fun kept recovers => kept.putMany
      ((recovers.withdraws kept.published).published kept.published)
      (recovers.knownRows kept.known) recovers.grows

/-- What a worker carries through an event of the service: its attempt when the event does
not touch it, and otherwise what the event leaves to it. -/
theorem Sound.carried_of_unchanged {world next : World} {process : Process} {index : Nat}
    (sound : Sound world) (grows : Grows world.store next.store)
    (live : world.live = some process) (working : process.workers index ≠ .idle) :
    ∃ id revision stored, Carries id revision (process.workers index) ∧
      next.store.materials.get id = some stored ∧ revision ≤ stored.revision := by
  obtain ⟨id, revision, stored, carries, found, before⟩ := sound.carried live working
  obtain ⟨later, laterFound, laterRevision⟩ := grows _ _ found
  exact ⟨id, revision, later, carries, laterFound, Nat.le_trans before laterRevision⟩

/-- Every event keeps the invariant. -/
theorem Sound.step {services : Services} {pool : Nat} {world next : World} {event : Event}
    (sound : Sound world) (taken : Workspace.step services pool world event = some next) :
    Sound next := by
  have kept := sound.kept taken
  refine ⟨kept.published, kept.known, ?_⟩
  obtain ⟨⟨-, areFresh⟩, stepped⟩ := stepped_of_step taken
  intro after index alive working
  cases stepped with
  | @request process now request allowed live =>
      obtain rfl := Option.some.inj alive
      rw [Process.signals_workers] at working ⊢
      exact sound.carried_of_unchanged kept.grows live working
  | @claim process claimant materialId allowed outcome live inPool idle executed =>
      obtain rfl := Option.some.inj alive
      rw [Process.signals_workers] at working ⊢
      have claims := claimNext_carries sound.published materialId
      subst executed
      by_cases unclaimed : (process.afterClaim claimant
          ((claimNext materialId).execute world.store allowed).result).workers index =
            process.workers index
      · rw [unclaimed] at working ⊢
        exact sound.carried_of_unchanged kept.grows live working
      · cases claimed : ((claimNext materialId).execute world.store allowed).result with
        | error error => simp [claimed, Process.afterClaim] at unclaimed
        | ok selected =>
            match selected with
            | none => simp [claimed, Process.afterClaim] at unclaimed
            | some (m, g) =>
                obtain ⟨nameless, running, stored⟩ := claims.run_post claimed
                simp only [claimed, Process.afterClaim, Process.claimed,
                  Process.setWorker_workers] at unclaimed ⊢
                split
                case isTrue =>
                  exact ⟨m.id, m.revision, m, .working rfl rfl nameless running, stored, le_rfl⟩
                case isFalse different => simp [different] at unclaimed
  | @work process worked now resultId answer allowed op outcome live enabled executed =>
      obtain rfl := Option.some.inj alive
      rw [Process.signals_workers, Process.setWorker_workers] at working ⊢
      split at working
      case isFalse different =>
        rw [if_neg different]
        exact sound.carried_of_unchanged kept.grows live working
      case isTrue same =>
        rw [if_pos same]
        have worked : process.workers worked ≠ .idle := by
          intro idle
          simp [idle, Worker.step] at enabled
        obtain ⟨id, revision, stored, carries, found, before⟩ := sound.carried live worked
        have unused := (sound.known.unused areFresh).result resultId List.mem_cons_self
        have holds := Worker.step_holds sound.published unused carries enabled
        obtain ⟨later, laterFound, grows⟩ := kept.grows _ _ found
        subst executed
        refine ⟨id, revision, later, ?_, laterFound, Nat.le_trans before grows⟩
        cases ended : (op.execute world.store allowed).result with
        | ok next => exact holds.run_post ended
        | error error => exact carries.failed error
  | crash live => cases alive
  | @start now running allowed outcome stopped listed executed =>
      obtain rfl := eq_start_of_live alive
      exact absurd rfl working

theorem Sound.initial : Sound World.initial where
  published := Published.empty
  known := by
    constructor
    case stage => exact fun found => by simp [World.initial, Store.empty] at found
    all_goals intros; simp_all [World.initial, Store.empty]
  carried := fun alive => by cases alive

theorem sound_of_reachable {services : Services} {pool : Nat} {world : World}
    (reachable : (machine services pool).Reachable World.initial world) : Sound world :=
  reachable.invariant Sound Sound.initial Sound.step

end LawyerAssistance.Workspace

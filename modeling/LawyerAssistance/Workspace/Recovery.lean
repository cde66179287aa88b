import LawyerAssistance.Workspace.Review

/-!
# Recovery after a stop of the process

A complete start leaves no material and no stage running. A material whose model request
or cloud dispatch may be in flight ends in review, where only a request of the user takes it
away, and no other material changes unless it ran. With its one worker the service keeps a
running stage on record for as long as it waits for a model.
-/

namespace LawyerAssistance.Workspace

open PrivacyText

/-- A model request of the present attempt at the material may be in flight: its stage is
running, for the revision and the source of the material. -/
def Interrupted (store : Store) (m : Material) : Prop :=
  ∃ record, store.aiStages.get m.id = some record ∧ record.stage.isRunning = true ∧
    m.revision = record.revision ∧ m.sourceSha256 = record.sourceSha256

/-- A model request or a cloud dispatch for the material may be in flight. -/
def MayBeInFlight (store : Store) (m : Material) : Prop :=
  (m.status = .running ∧ ConsentUsed store m) ∨
    ((m.status = .running ∨ m.status = .queued) ∧ Interrupted store m)

/-! ## Recovery -/

/-- What the recovery makes of a store, wherever it stops. -/
structure Recovering (before after : Store) : Prop where
  consents : after.consents = before.consents
  stages : ∀ {id record}, after.aiStages.get id = some record → record.stage.isRunning = true →
    before.aiStages.get id = some record
  inFlight : ∀ {id m}, before.materials.get id = some m → MayBeInFlight before m →
    ∃ later, after.materials.get id = some later ∧
      (later.status = .needsReview ∨ MayBeInFlight after later)
  others : ∀ {id m}, before.materials.get id = some m → m.status ≠ .running →
    ¬ MayBeInFlight before m → after.materials.get id = some m

theorem Recovering.refl (store : Store) : Recovering store store :=
  ⟨rfl, fun found _ => found, fun found inFlight => ⟨_, found, .inr inFlight⟩,
    fun found _ _ => found⟩

theorem Recovering.trans {before middle after : Store} (first : Recovering before middle)
    (second : Recovering middle after) : Recovering before after where
  consents := second.consents.trans first.consents
  stages := fun found running => first.stages (second.stages found running) running
  inFlight := by
    intro id m found inFlight
    obtain ⟨later, laterFound, review | inFlight⟩ := first.inFlight found inFlight
    · refine ⟨later, second.others laterFound (by simp [review]) ?_, .inl review⟩
      rintro (⟨running, -⟩ | ⟨running | queued, -⟩) <;> simp_all
    · exact second.inFlight laterFound inFlight
  others := by
    intro id m found stopped notInFlight
    refine second.others (first.others found stopped notInFlight) stopped fun inFlight => ?_
    rcases inFlight with ⟨running, -⟩ | ⟨status, record, recorded, running, sameAttempt⟩
    · exact stopped running
    · exact notInFlight (.inr ⟨status, record, first.stages recorded running, running, sameAttempt⟩)

/-- One transaction of the recovery. -/
theorem RecoveryRows.recovering {store : Store} {rows : List Row}
    (recovers : RecoveryRows store rows) (holds : Published store) :
    Recovering store (store.putMany rows) := by
  cases recovers with
  | @requeue m found running =>
    have read : ∀ id, (store.putMany [.material m.id (recoveredMaterial store m)]
        ).materials.get id =
          if id = m.id then some (recoveredMaterial store m) else store.materials.get id :=
      fun id => Table.get_put _ _ _ _
    refine ⟨rfl, fun found _ => found, ?_, ?_⟩
    · intro id other otherFound inFlight
      rw [read]
      split
      · rename_i same
        subst same
        obtain rfl := Option.some.inj (found.symm.trans otherFound)
        refine ⟨_, rfl, ?_⟩
        rcases recoveredMaterial_cases store m with ⟨-, review⟩ | ⟨unused, queued⟩
        · exact .inl (by rw [review])
        · obtain ⟨-, interrupted⟩ := inFlight.resolve_left fun used => unused used.2
          rw [queued]
          exact .inr (.inr ⟨.inr rfl, interrupted⟩)
      · exact ⟨other, otherFound, .inr inFlight⟩
    · intro id other otherFound stopped _
      rw [read, if_neg]
      · exact otherFound
      · rintro rfl
        rw [Option.some.inj (otherFound.symm.trans found)] at stopped
        exact stopped running
  | @interrupt m record found recorded running current =>
    have read : ∀ id, (store.putMany [.material m.id (interruptedMaterial m)]).materials.get id =
        if id = m.id then some (interruptedMaterial m) else store.materials.get id :=
      fun id => Table.get_put _ _ _ _
    refine ⟨rfl, fun found _ => found, ?_, ?_⟩
    · intro id other otherFound inFlight
      rw [read]
      split
      · exact ⟨_, rfl, .inl rfl⟩
      · exact ⟨other, otherFound, .inr inFlight⟩
    · intro id other otherFound stopped notInFlight
      rw [read, if_neg]
      · exact otherFound
      · rintro rfl
        obtain rfl := Option.some.inj (found.symm.trans otherFound)
        exact notInFlight (.inr ⟨current.unsettled, record, recorded, running, current.1,
          current.2.1⟩)
  | @stage record now recorded stored outdated =>
    have read : ∀ id, (store.putMany [.aiStage record.materialId (interruptedStage now record)]
        ).aiStages.get id = if id = record.materialId then some (interruptedStage now record)
          else store.aiStages.get id :=
      fun id => Table.get_put _ _ _ _
    refine ⟨rfl, ?_, ?_, fun found _ _ => found⟩
    · intro id other found running
      rw [read] at found
      split at found
      · obtain rfl := Option.some.inj found
        cases running
      · exact found
    · intro id m found inFlight
      refine ⟨m, found, .inr ?_⟩
      refine inFlight.imp_right fun ⟨status, other, otherFound, running, revision, source⟩ =>
        ⟨status, other, ?_, running, revision, source⟩
      rw [read, if_neg]
      · exact otherFound
      · intro same
        obtain rfl := holds.materialKeyed found
        rw [same] at otherFound found
        obtain rfl := Option.some.inj (recorded.symm.trans otherFound)
        exact outdated m found ⟨revision, source, by simpa using status⟩

/-- What a start makes of the store, whether it is complete or not. -/
theorem recovering_of_start {services : Services} {pool : Nat} {world next : World}
    (sound : Sound world) {now : Nat} {running : List Id} {allowed : Option Nat}
    (taken : Workspace.step services pool world (.start now running allowed) = some next) :
    Recovering world.store next.store := by
  let invariant : Store → Prop := fun store => Published store ∧ Recovering world.store store
  cases (stepped_of_step taken).2 with
  | start stopped listed executed =>
    subst executed
    have both : invariant ((recovery now running).execute world.store allowed).state :=
      (recovery_holds sound.published sound.known.stage now listed).run_invariant invariant
        (fun before recovers => ⟨(recovers.withdraws before.1).published before.1,
          before.2.trans (recovers.recovering before.1)⟩)
        ⟨sound.published, .refl _⟩ allowed
    exact both.2

/-- A complete start leaves no material and no stage running. -/
theorem none_runs_of_start {services : Services} {pool : Nat} {world next : World}
    (sound : Sound world) {now : Nat} {running : List Id} {allowed : Option Nat}
    (taken : Workspace.step services pool world (.start now running allowed) = some next)
    (opened : next.live.isSome) :
    NoneRuns next.store ∧
      ∀ {id record}, next.store.aiStages.get id = some record → record.stage.isRunning = false := by
  cases (stepped_of_step taken).2 with
  | @start _ _ _ outcome stopped listed executed =>
    subst executed
    cases ended : ((recovery now running).execute world.store allowed).result with
    | error error => simp [ended] at opened
    | ok _ =>
      exact (recovery_holds sound.published sound.known.stage now listed).run_post ended

/-! ## Stages of the one worker -/

/-- The phases between a request to the model and the record of its outcome. -/
def Phase.hasOpenRequest : Phase → Bool
  | .extracting _ | .storingText .. | .savingTextReady .. | .redacting .. | .publishing ..
  | .recordingFailure .. => true
  | _ => false

/-- While an attempt is current, the stored source is the one which it carries, and its open
request to the model has a running stage on record. -/
def Staged (store : Store) (worker : Worker) : Prop :=
  ∀ job phase m, worker = .working job phase → worker.attempt ≠ none →
    store.materials.get job.material.id = some m → m.revision = job.material.revision →
    m.status = .running → m.sourceSha256 = job.material.sourceSha256 ∧
      (phase.hasOpenRequest = true → Interrupted store m)

theorem Staged.of_finished {store : Store} {worker : Worker} (finished : worker.attempt = none) :
    Staged store worker :=
  fun _ _ _ _ unfinished => absurd finished unfinished

section Stages

variable {services : Services} {now : Nat} {resultId materialId : Id} {revision : Nat} {store : Store}
  {job : Job} {phase : Phase}

/-- The same attempt goes on in a phase which needs no other stage. -/
theorem Staged.goes_on {next : Job} {nextPhase : Phase} {after : Store}
    (staged : Staged store (.working job phase))
    (unfinished : (Worker.working job phase).attempt ≠ none)
    (materials : after.materials = store.materials) (sameId : next.material.id = job.material.id)
    (sameRevision : next.material.revision = job.material.revision)
    (sameSource : next.material.sourceSha256 = job.material.sourceSha256)
    (stage : nextPhase.hasOpenRequest = true →
      phase.hasOpenRequest = true ∧ after.aiStages = store.aiStages) :
    Staged after (.working next nextPhase) := by
  intro other otherPhase m same _ found isRevision running
  obtain ⟨rfl, rfl⟩ := Worker.working.inj same
  rw [materials, sameId] at found
  obtain ⟨source, recorded⟩ :=
    staged job phase m rfl unfinished found (isRevision.trans sameRevision) running
  refine ⟨source.trans sameSource.symm, fun isStaged => ?_⟩
  obtain ⟨before, stages⟩ := stage isStaged
  unfold Interrupted
  rw [stages]
  exact recorded before

/-- Storing a running stage of the attempt. -/
theorem Staged.save (holds : Published store) {nextPhase : Phase} {stage : AiStage}
    {selection : AiModelSelection} {textSha256 : Option String}
    (staged : Staged store (.working job phase))
    (unfinished : (Worker.working job phase).attempt ≠ none)
    (running : nextPhase.hasOpenRequest = true → stage.isRunning = true) :
    (saveAiStage now job.material stage selection textSha256 none).Holds Store.putMany
      (fun _ _ => True) (fun _ after => Staged after (.working job nextPhase)) store := by
  refine ⟨trivial, ?_⟩
  intro other otherPhase m same _ found isRevision isRunning
  obtain ⟨rfl, rfl⟩ := Worker.working.inj same
  have source := (staged job phase m rfl unfinished found isRevision isRunning).1
  refine ⟨source, fun isStaged => ⟨stageRecord now job.material stage selection textSha256 none,
    ?_, running isStaged, isRevision, source⟩⟩
  rw [holds.materialKeyed found]
  exact Table.get_put_self _ _ _

theorem Job.step_staged (holds : Published store)
    (carries : Carries materialId revision (.working job phase))
    (staged : Staged store (.working job phase)) {cancelled : Bool} {answer : Answer}
    {op : Op Worker}
    (enabled : job.step services now resultId cancelled phase answer = some op) :
    op.Holds Store.putMany (fun _ _ => True) (fun next after => Staged after next) store := by
  have goesOn : ∀ {next : Job} {nextPhase : Phase}, (Worker.working job phase).attempt ≠ none →
      next.material.id = job.material.id → next.material.revision = job.material.revision →
      next.material.sourceSha256 = job.material.sourceSha256 →
      (nextPhase.hasOpenRequest = true → phase.hasOpenRequest = true) →
      Staged store (.working next nextPhase) :=
    fun unfinished sameId sameRevision sameSource stage => staged.goes_on unfinished rfl sameId
      sameRevision sameSource fun isStaged => ⟨stage isStaged, rfl⟩
  have finishes : ∀ {op : Op Worker},
      op.Always (fun _ => True) (fun next => next.attempt = none) →
      op.Holds Store.putMany (fun _ _ => True) (fun next after => Staged after next) store :=
    fun ends => (ends.holds store).imp (fun _ _ _ => trivial) fun _ _ => Staged.of_finished
  unfold Job.step at enabled
  split at enabled
  case h_24 => cases enabled
  case h_21 analysis consent config leg =>
    have unfinished : (Worker.working job (.cloud analysis consent config leg)).attempt ≠ none := by
      simp [Worker.attempt]
    have drops : ∀ code, Staged store (withoutCloud job analysis code) :=
      fun _ => goesOn unfinished rfl rfl rfl (by simp [Phase.hasOpenRequest])
    have checked : ∀ {check : Except Error Unit} {next : Op Worker},
        next.Holds Store.putMany (fun _ _ => True) (fun next after => Staged after next) store →
        (orWithoutCloud job analysis check next).Holds Store.putMany (fun _ _ => True)
          (fun next after => Staged after next) store := by
      intro check next continues
      cases check with
      | ok _ => exact continues
      | error error => exact drops _
    unfold cloudStep at enabled
    split at enabled
    case h_5 => cases enabled
    all_goals obtain rfl := Option.some.inj enabled
    case h_1 =>
      rw [Program.holds_pure]
      split
      · exact drops _
      · split <;> exact goesOn unfinished rfl rfl rfl fun stage => stage
    case h_2 => exact checked (goesOn unfinished rfl rfl rfl fun stage => stage)
    case h_3 => exact checked (goesOn unfinished rfl rfl rfl fun stage => stage)
    case h_4 sent reply =>
      refine checked ?_
      change Staged store (pollResult job analysis consent config reply)
      unfold pollResult
      split
      · exact goesOn unfinished rfl rfl rfl fun stage => stage
      · exact drops _
      · split
        · exact drops _
        · exact goesOn unfinished rfl rfl rfl fun stage => stage
  all_goals obtain rfl := Option.some.inj enabled
  case h_14 => exact finishes (finishAttempt_always rfl rfl)
  case h_23 =>
    unfold finishLocal
    split <;> exact finishes (finishAttempt_always rfl rfl)
  case h_5 =>
    rw [Program.holds_bind]
    exact staged.save holds (by simp [Worker.attempt]) fun _ => rfl
  case h_10 =>
    rw [Program.holds_bind]
    exact staged.save holds (by simp [Worker.attempt]) fun running => by cases running
  case h_11 =>
    rw [Program.holds_bind]
    exact staged.save holds (by simp [Worker.attempt]) fun _ => rfl
  case h_9 selection extracted =>
    simp only [storeText, Program.holds_bind, Program.holds_current, Program.holds_lift,
      Store.material_eq_ok]
    intro fresh found
    split
    · rename_i isCurrent
      simp only [attemptIsCurrent, Bool.and_eq_true, beq_iff_eq] at isCurrent
      obtain ⟨source, recorded⟩ := staged job _ fresh rfl (by simp [Worker.attempt]) found
        isCurrent.1 isCurrent.2
      refine ⟨trivial, ?_⟩
      intro next nextPhase m same _ stored _ _
      obtain ⟨rfl, rfl⟩ := Worker.working.inj same
      obtain rfl : { fresh with originalText := extracted } = m := by
        simpa [Store.writeRow] using stored
      exact ⟨rfl, fun _ => recorded rfl⟩
    · exact Staged.of_finished rfl
  case h_19 analysis =>
    simp only [saveAnalysis, Program.holds_bind, Program.holds_current, Program.holds_lift]
    intro fresh _
    split
    · refine ⟨trivial, ?_⟩
      intro next nextPhase m same _ stored _ _
      obtain ⟨rfl, rfl⟩ := Worker.working.inj same
      obtain rfl : { job.material with analysis := some analysis } = m := by
        simpa [Store.writeRow] using stored
      refine ⟨rfl, ?_⟩
      split <;> simp [Phase.hasOpenRequest]
    · exact Staged.of_finished rfl
  case h_20 =>
    have waits : ∀ {store after : Store} {analysis : Analysis} {nextPhase : Phase},
        Staged store (.working job (.claimingCloud analysis)) →
        after.materials = store.materials → nextPhase.hasOpenRequest = false →
        Staged after (.working job nextPhase) :=
      fun staged same unstaged => staged.goes_on (by simp [Worker.attempt]) same rfl rfl rfl
        (by simp [unstaged])
    simp only [claimCloud, Program.holds_bind, Program.holds_current]
    split
    · exact waits staged rfl rfl
    · rw [Program.holds_bind, Program.holds_lift]
      intro config _
      split
      · exact waits staged rfl rfl
      · simp only [Program.holds_bind, Program.holds_lift, Program.holds_refuse]
        exact fun _ _ _ => ⟨trivial, waits staged rfl rfl⟩
  case h_22 =>
    simp only [acceptFindings, Program.holds_bind, Program.holds_current]
    split <;> exact goesOn (by simp [Worker.attempt]) rfl rfl rfl (by simp [Phase.hasOpenRequest])
  case h_4 =>
    simp only [openSource, Program.holds_bind, Program.holds_current, Program.holds_lift,
      Program.holds_refuse, Program.holds_pure]
    intro _ _ _
    split <;> exact goesOn (by simp [Worker.attempt]) rfl rfl rfl (by simp [Phase.hasOpenRequest])
  case h_2 =>
    split
    · exact goesOn (by simp [Worker.attempt]) rfl rfl rfl fun stage => stage
    · trivial
  case h_13 =>
    rw [Program.holds_pure]
    split <;> exact goesOn (by simp [Worker.attempt]) rfl rfl rfl fun _ => rfl
  case h_1 => exact goesOn (by simp [Worker.attempt]) rfl rfl rfl fun stage => stage
  case h_3 =>
    simp only [Program.holds_bind, Program.holds_refuse, Program.holds_lift]
    exact fun _ _ _ => goesOn (by simp [Worker.attempt]) rfl rfl rfl fun stage => stage
  case h_6 => exact goesOn (by simp [Worker.attempt]) rfl rfl rfl fun stage => stage
  case h_7 =>
    simp only [Program.holds_bind, Program.holds_refuse]
    exact fun _ => goesOn (by simp [Worker.attempt]) rfl rfl rfl fun _ => rfl
  case h_8 => exact goesOn (by simp [Worker.attempt]) rfl rfl rfl fun _ => rfl
  case h_12 => exact goesOn (by simp [Worker.attempt]) rfl rfl rfl fun stage => stage
  case h_15 =>
    rw [Program.holds_bind]
    exact ⟨trivial, Staged.of_finished rfl⟩
  case h_16 =>
    rw [Program.holds_bind]
    exact ⟨trivial, trivial⟩
  case h_17 =>
    simp only [Program.holds_bind, Program.holds_lift]
    exact fun _ _ => goesOn (by simp [Worker.attempt]) rfl rfl rfl (by simp [Phase.hasOpenRequest])
  case h_18 => trivial

/-- A step of a worker keeps its attempt staged. -/
theorem Worker.step_staged {worker : Worker} (holds : Published store)
    (carries : Carries materialId revision worker) (staged : Staged store worker)
    {cancelled : Bool} {answer : Answer} {op : Op Worker} {allowed : Option Nat}
    (enabled : worker.step services now resultId cancelled answer = some op) :
    Staged (op.execute store allowed).state (worker.next (op.execute store allowed).result) := by
  have steps : op.Holds Store.putMany (fun _ _ => True) (fun next after => Staged after next)
      store := by
    unfold Worker.step at enabled
    split at enabled
    · cases enabled
    · obtain rfl := Option.some.inj enabled
      exact Staged.of_finished rfl
    · exact Job.step_staged holds carries staged enabled
    · obtain rfl := Option.some.inj enabled
      simp only [failMaterial, Program.holds_bind, Program.holds_current, Program.holds_lift]
      intro _ _
      split
      · exact ⟨trivial, Staged.of_finished rfl⟩
      · exact Staged.of_finished rfl
    · cases enabled
  cases ended : (op.execute store allowed).result with
  | error error => exact Staged.of_finished (Worker.failed_attempt worker error)
  | ok next => exact steps.run_post ended

end Stages

/-- A request leaves the running materials which it does not move, with their stages. -/
theorem Lawful.running_kept {fresh : List Id} {store : Store} {rows : List Row}
    (lawful : Lawful fresh store rows) {id : Id} {m : Material}
    (found : (store.putMany rows).materials.get id = some m) (running : m.status = .running) :
    store.materials.get id = some m ∧
      (store.putMany rows).aiStages.get id = store.aiStages.get id := by
  have unmoved : ∀ {others}, Rewrite fresh store others → .material id m ∉ others := by
    intro others rewrites member
    have move := rewrites.moves member
    cases before : store.materials.get id <;> rw [before] at move
    case none =>
      cases move with
      | submitted _ status => simp [running] at status
    case some old =>
      cases move with
      | revised _ stopped => exact stopped running
      | requeued => cases running
      | kept stopped =>
        replace running : old.status = .running := running
        simp [running] at stopped
  have unstaged : ∀ {others}, Rewrite fresh store others → store.materials.get id = some m →
      ∀ record, .aiStage id record ∉ others := by
    intro others rewrites stored record member
    obtain ⟨-, other, otherFound, stopped⟩ := rewrites.stages member
    rw [Option.some.inj (otherFound.symm.trans stored)] at stopped
    exact stopped running
  have kept : store.materials.get id = some m := by
    rcases materials_putMany_cases found with member | ⟨kept, -⟩
    · cases lawful with
      | rewrite rewrites => exact absurd member (unmoved rewrites)
      | consent rewrites => exact absurd (by simpa using member) (unmoved rewrites)
      | publish publishes =>
        obtain ⟨-, rfl⟩ : id = _ ∧ m = _ := by
          rcases revokedResult_eq_ok.mp publishes.revokes with ⟨-, rfl⟩ | ⟨_, _, -, -, rfl⟩ <;>
            simpa using member
        simp [publishes.status] at running
    · exact kept
  refine ⟨kept, aiStages_putMany_of_absent fun record member => ?_⟩
  cases lawful with
  | rewrite rewrites => exact unstaged rewrites kept record member
  | consent rewrites => exact unstaged rewrites kept record (by simpa using member)
  | publish publishes =>
    rcases revokedResult_eq_ok.mp publishes.revokes with ⟨-, rfl⟩ | ⟨_, _, -, -, rfl⟩ <;>
      simp at member

theorem Staged.lawful {fresh : List Id} {store : Store} {rows : List Row} {worker : Worker}
    (staged : Staged store worker) (holds : Published store) (lawful : Lawful fresh store rows) :
    Staged (store.putMany rows) worker := by
  intro job phase m same unfinished found isRevision running
  obtain ⟨kept, stages⟩ := lawful.running_kept found running
  obtain ⟨source, recorded⟩ := staged job phase m same unfinished kept isRevision running
  refine ⟨source, fun isStaged => ?_⟩
  have recorded := recorded isStaged
  unfold Interrupted at recorded ⊢
  rw [holds.materialKeyed kept] at recorded ⊢
  rw [stages]
  exact recorded

/-- The one worker of the service is staged, and there is no other one. -/
structure OneWorker (world : World) : Prop where
  alone : ∀ {process index}, world.live = some process → index ≠ 0 →
    process.workers index = .idle
  staged : ∀ {process}, world.live = some process → Staged world.store (process.workers 0)

/-- Every event of the service with one worker keeps it staged. -/
theorem OneWorker.step {services : Services} {world next : World} {event : Event}
    (sound : Sound world) (one : OneWorker world)
    (taken : Workspace.step services 1 world event = some next) : OneWorker next := by
  have areFresh := (stepped_of_step taken).1.2
  cases (stepped_of_step taken).2 with
  | @request process now request allowed live =>
    constructor
    · intro after index alive other
      obtain rfl := Option.some.inj alive
      rw [Process.signals_workers]
      exact one.alone live other
    · intro after alive
      obtain rfl := Option.some.inj alive
      rw [Process.signals_workers]
      let invariant : Store → Prop := fun store =>
        Published store ∧ Staged store (process.workers 0)
      have both : invariant ((request.op services now).execute world.store allowed).state :=
        (request.lawful sound.published services now
          (sound.known.unused areFresh)).run_invariant invariant
          (fun before lawful => ⟨lawful.published before.1, before.2.lawful before.1 lawful⟩)
          ⟨sound.published, one.staged live⟩ allowed
      exact both.2
  | @claim process claimant materialId allowed outcome live inPool idle executed =>
    obtain rfl : claimant = 0 := by omega
    subst executed
    rcases (claimNext_outcome sound.published materialId allowed).2 with
      ⟨sameStore, unclaimed⟩ | ⟨m, g, stored, queued, state, claimed⟩
    · constructor
      · intro after index alive other
        obtain rfl := Option.some.inj alive
        rw [Process.signals_workers, process.afterClaim_unclaimed unclaimed]
        exact one.alone live other
      · intro after alive
        obtain rfl := Option.some.inj alive
        rw [Process.signals_workers, process.afterClaim_unclaimed unclaimed]
        change Staged ((claimNext materialId).execute world.store allowed).state _
        rw [sameStore]
        exact one.staged live
    · constructor
      · intro after index alive other
        obtain rfl := Option.some.inj alive
        rw [Process.signals_workers, claimed]
        simp only [Process.afterClaim, Process.claimed, Process.setWorker_workers, if_neg other]
        exact one.alone live other
      · intro after alive
        obtain rfl := Option.some.inj alive
        rw [Process.signals_workers, claimed]
        simp only [Process.afterClaim, Process.claimed, Process.setWorker_workers, if_true]
        change Staged ((claimNext materialId).execute world.store allowed).state _
        rw [state]
        intro job phase other same _ found _ _
        obtain ⟨rfl, rfl⟩ := Worker.working.inj same
        obtain rfl : claimedMaterial m g = other := by
          simpa [Store.writeRow, claimedMaterial] using found
        exact ⟨rfl, fun isStaged => by cases isStaged⟩
  | @work process worked now resultId answer allowed op outcome live enabled executed =>
    have atWork : process.workers worked ≠ .idle := by
      intro idle
      simp [idle, Worker.step] at enabled
    obtain rfl : worked = 0 := by
      by_contra other
      exact atWork (one.alone live other)
    obtain ⟨claimed, claimedRevision, -, carries, -, -⟩ := sound.carried live atWork
    subst executed
    constructor
    · intro after index alive other
      obtain rfl := Option.some.inj alive
      rw [Process.signals_workers, Process.setWorker_workers, if_neg other]
      exact one.alone live other
    · intro after alive
      obtain rfl := Option.some.inj alive
      rw [Process.signals_workers, Process.setWorker_workers, if_pos rfl]
      exact Worker.step_staged sound.published carries (one.staged live) enabled
  | crash live =>
    constructor
    · intro after index alive
      cases alive
    · intro after alive
      cases alive
  | @start now running allowed outcome stopped listed executed =>
    refine ⟨fun alive _ => ?_, fun alive => ?_⟩
    · rw [eq_start_of_live alive]
      rfl
    · rw [eq_start_of_live alive]
      exact Staged.of_finished rfl

/-- Every reachable world of the service with one worker. -/
theorem oneWorker_of_reachable {services : Services} {world : World}
    (reachable : (machine services 1).Reachable World.initial world) : OneWorker world := by
  have initial : OneWorker World.initial := by
    constructor
    · intro process index alive
      cases alive
    · intro process alive
      cases alive
  exact (reachable.invariant (fun world => Sound world ∧ OneWorker world)
    ⟨Sound.initial, initial⟩
    (fun before taken => ⟨before.1.step taken, before.2.step before.1 taken⟩)).2

/-! ## Restarts -/

/-- A stop or a start of the process, complete or not. -/
def Event.isRestart : Event → Prop
  | .crash | .start .. => True
  | .request .. | .claim .. | .work .. => False

/-- What stops and starts make of a store. -/
theorem recovering_of_restarts {services : Services} {pool : Nat} {world next : World}
    {restarts : List Event} (sound : Sound world)
    (areRestarts : ∀ event ∈ restarts, event.isRestart)
    (runs : (machine services pool).run world restarts = some next) :
    Recovering world.store next.store := by
  induction restarts generalizing world with
  | nil =>
    obtain rfl := Option.some.inj runs
    exact .refl _
  | cons event rest inductionHypothesis =>
    obtain ⟨middle, taken, runsRest⟩ := (machine services pool).run_cons_eq_some.mp runs
    have first : Recovering world.store middle.store := by
      cases event with
      | crash =>
        have crashed : Workspace.step services pool world .crash = some middle := taken
        cases (stepped_of_step crashed).2 with
        | crash live => exact .refl _
      | start now running allowed => exact recovering_of_start sound taken
      | request | claim | work => exact (areRestarts _ List.mem_cons_self).elim
    exact first.trans (inductionHypothesis (sound.step taken)
      (fun event member => areRestarts event (List.mem_cons_of_mem _ member)) runsRest)

/-- Only a request takes a material out of review. -/
theorem review_waits_for_request {services : Services} {pool : Nat} {world final : World}
    {events : List Event} {id : Id} {m : Material} (sound : Sound world)
    (found : world.store.materials.get id = some m) (review : m.status = .needsReview)
    (automatic : ∀ event ∈ events, ¬ event.isRequest)
    (runs : (machine services pool).run world events = some final) :
    final.store.materials.get id = some m := by
  induction events generalizing world with
  | nil =>
    obtain rfl := Option.some.inj runs
    exact found
  | cons event rest inductionHypothesis =>
    obtain ⟨middle, taken, runsRest⟩ := (machine services pool).run_cons_eq_some.mp runs
    refine inductionHypothesis (sound.step taken) ?_
      (fun event member => automatic event (List.mem_cons_of_mem _ member)) runsRest
    have stays : ∀ {store : Store} {rows : List Row}, store.materials.get id = some m →
        Spares store rows → (store.putMany rows).materials.get id = some m :=
      fun stored spares => spares.kept stored (by simp [review]) (by simp [review])
    refine sound.store_invariant taken (fun store => store.materials.get id = some m) ?_ ?_ ?_ ?_
      found
    · exact fun isRequest => absurd isRequest (automatic event List.mem_cons_self)
    · exact fun _ stored attempt => stays stored attempt.spares
    · exact fun stored claim => stays stored claim.spares
    · exact fun stored recovers => stays stored recovers.spares

/-- A restart leaves no material and no stage running. What may be in flight ends in review and
waits there for a request, and every other material that did not run is unchanged. In flight is
what was polled under the stored consent of its task and, with the one worker of the service,
every attempt with an open request to the model. -/
theorem restart_recovers {services : Services} {pool : Nat} {world stopped next : World}
    (reachable : (machine services pool).Reachable World.initial world) {restarts : List Event}
    (areRestarts : ∀ event ∈ restarts, event.isRestart)
    (runs : (machine services pool).run world restarts = some stopped) {now : Nat}
    {running : List Id} {allowed : Option Nat}
    (taken : (machine services pool).step stopped (.start now running allowed) = some next)
    (opened : next.live.isSome) :
    (∀ id m, next.store.materials.get id = some m → m.status ≠ .running) ∧
    (∀ id record, next.store.aiStages.get id = some record → record.stage.isRunning = false) ∧
    (∀ id m, world.store.materials.get id = some m → MayBeInFlight world.store m →
      ∃ later, next.store.materials.get id = some later ∧ later.status = .needsReview ∧
        ∀ events final, (∀ event ∈ events, ¬ event.isRequest) →
          (machine services pool).run next events = some final →
          final.store.materials.get id = some later) ∧
    (∀ id m, world.store.materials.get id = some m → m.status ≠ .running →
      ¬ MayBeInFlight world.store m → next.store.materials.get id = some m) ∧
    (∀ id m c poll, world.store.materials.get id = some m → m.status = .running →
      world.store.consents.get m.taskId = some c → poll ∈ world.polls → poll.consentId = c.id →
      poll.materialId = id → MayBeInFlight world.store m) ∧
    (pool = 1 → ∀ process job phase m, world.live = some process →
      process.workers 0 = .working job phase → phase.hasOpenRequest = true →
      world.store.materials.get job.material.id = some m → m.revision = job.material.revision →
      m.status = .running → MayBeInFlight world.store m) := by
  have sound := sound_of_reachable reachable
  have soundStopped := sound_of_reachable (reachable.run runs)
  have started : Workspace.step services pool stopped (.start now running allowed) = some next :=
    taken
  have soundNext := soundStopped.step started
  obtain ⟨stopped, unstaged⟩ := none_runs_of_start soundStopped taken opened
  have recovering := (recovering_of_restarts sound areRestarts runs).trans
    (recovering_of_start soundStopped taken)
  refine ⟨fun _ _ => stopped, fun _ _ => unstaged, ?_, fun _ _ => recovering.others, ?_, ?_⟩
  · intro id m found inFlight
    obtain ⟨later, laterFound, review⟩ := recovering.inFlight found inFlight
    have review : later.status = .needsReview := by
      rcases review with review | ⟨running, -⟩ | ⟨-, record, recorded, stageRunning, -⟩
      · exact review
      · exact absurd running (stopped laterFound)
      · simp [unstaged recorded] at stageRunning
    exact ⟨later, laterFound, review, fun events final automatic runs =>
      review_waits_for_request soundNext laterFound review automatic runs⟩
  · intro id m c poll found isRunning consented polled sameConsent sameMaterial
    have spent := (cloudSound_of_reachable reachable).polls polled
    have used := spent.2 consented sameConsent.symm
    rw [sameMaterial, ← sound.published.materialKeyed found] at used
    exact .inl ⟨isRunning, c, consented, used⟩
  · rintro rfl process job phase m live works isOpen found sameRevision isRunning
    have unfinished : (process.workers 0).attempt ≠ none := by
      rw [works]
      cases phase <;> simp_all [Phase.hasOpenRequest, Worker.attempt]
    have staged := (oneWorker_of_reachable reachable).staged live
    exact .inr ⟨.inl isRunning,
      (staged job phase m works unfinished found sameRevision isRunning).2 isOpen⟩

/-- The model-led leg up to the request which locates the findings. -/
def locatingByModel : List Event :=
  submitted ++ processedByModel.take 9 ++ [.work 0 3 "w9" .modelRequest none]

/-- The model-led leg with its first request, up to the stored text. -/
def recognizedByModel : List Event :=
  submitted ++ processedByModel.take 5 ++ [.work 0 3 "ocr" .modelRequest none] ++
    (processedByModel.drop 5).take 3

/-- A start of the process after a stop. -/
def started : List Event := [.start 9 ["mat"] none]

/-- The material, the revision and whether a request is open. -/
def Worker.waitsFor : Worker → Id × Nat × Bool
  | .working job phase => (job.material.id, job.material.revision, phase.hasOpenRequest)
  | _ => ("", 0, false)

/-- A restart sends the file which waits for the model to review. -/
theorem restart_recovers_locating :
    ∃ later, (worldAfter findingServices 1 (locatingByModel ++ [.crash] ++ started)
        ).store.materials.get "mat" = some later ∧ later.status = .needsReview := by
  have running : ((worldAfter findingServices 1 locatingByModel).store.materials.get
      "mat").map (fun m => (m.revision, m.status)) = some (1, .running) := by decide +kernel
  have waits : (worldAfter findingServices 1 locatingByModel).live.map (fun process =>
      (process.workers 0).waitsFor) = some ("mat", 1, true) := by decide +kernel
  have crashed := @worldAfter_run findingServices 1 locatingByModel [.crash] (by decide +kernel)
  have taken := @worldAfter_run findingServices 1 (locatingByModel ++ [.crash]) started
    (by decide +kernel)
  rw [started, Machine.run_singleton] at taken
  obtain ⟨m, stored, status⟩ := Option.map_eq_some_iff.mp running
  obtain ⟨process, live, attempt⟩ := Option.map_eq_some_iff.mp waits
  have recovers := restart_recovers (worldAfter_reachable (by decide +kernel))
    (by simp [Event.isRestart]) crashed taken (by decide +kernel)
  cases works : process.workers 0 with
  | idle => simp [works, Worker.waitsFor] at attempt
  | settling => simp [works, Worker.waitsFor] at attempt
  | working job phase =>
    simp only [works, Worker.waitsFor, Prod.mk.injEq] at attempt status
    obtain ⟨sameId, sameRevision, isOpen⟩ := attempt
    have inFlight := recovers.2.2.2.2.2 rfl process job phase m live works isOpen
      (sameId ▸ stored) (status.1.trans sameRevision.symm) status.2
    obtain ⟨later, found, review, -⟩ := recovers.2.2.1 "mat" m stored inFlight
    exact ⟨later, found, review⟩

/-- A request of the text recognition which is complete does not hold a file back: the restart
puts the file into the queue again. -/
theorem restart_requeues_recognized :
    ("mat", 1) ∈ (worldAfter findingServices 1 recognizedByModel).modelRequests ∧
    (machine findingServices 1).run (worldAfter findingServices 1 recognizedByModel)
        (.crash :: started) =
      some (worldAfter findingServices 1 (recognizedByModel ++ .crash :: started)) ∧
    ((worldAfter findingServices 1 recognizedByModel).store.materials.get "mat").map
      (fun m => (m.revision, m.status)) = some (1, .running) ∧
    ((worldAfter findingServices 1 (recognizedByModel ++ .crash :: started)).store.materials.get
      "mat").map (fun m => (m.revision, m.status)) = some (1, .queued) :=
  ⟨by decide +kernel, worldAfter_run (by decide +kernel), by decide +kernel, by decide +kernel⟩

end LawyerAssistance.Workspace

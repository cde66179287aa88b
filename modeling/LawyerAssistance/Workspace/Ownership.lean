import LawyerAssistance.Workspace.StaleWorker

/-!
# Who owns an attempt

An attempt is unfinished until its last transaction on the material. At most one worker is
in an unfinished attempt at a stored revision, and while it is, the material does not wait
for another one: it is running, or it has ended. So an attempt whose material is no longer
running at its revision is lost for good.
-/

namespace LawyerAssistance.Workspace

open PrivacyText

/-- The material and the revision of an unfinished attempt. -/
def Worker.attempt : Worker → Option (Id × Nat)
  | .working _ (.savingOutcome ..) => none
  | .working job _ => some (job.material.id, job.material.revision)
  | .idle | .settling .. => none

theorem Worker.subject_of_attempt {worker : Worker} {attempt : Id × Nat}
    (unfinished : worker.attempt = some attempt) : worker.subject = some attempt := by
  cases worker with
  | idle => cases unfinished
  | settling => cases unfinished
  | working job phase => cases phase <;> simp_all [Worker.attempt, Worker.subject]

@[simp] theorem Worker.failed_attempt (worker : Worker) (error : Error) :
    (worker.failed error).attempt = none := by
  cases worker with
  | idle => rfl
  | settling => rfl
  | working job phase => cases phase <;> rfl

section Steps

variable {services : Services} {now : Nat} {resultId id : Id} {revision : Nat} {store : Store}

theorem finishLocked_always {sends : Signal → Prop} {post : Unit → Prop} (after : post ())
    {m : Material} {g : Group} {analysis : Analysis} {waiting : Bool} :
    (finishLocked services now resultId m g analysis waiting).Always sends post := by
  simp only [finishLocked, Program.always_bind, Program.always_current, Program.always_lift,
    Program.always_commit]
  exact fun _ _ _ _ _ => after

theorem finishAttempt_always {sends : Signal → Prop} {post : Worker → Prop} {m : Material}
    {g : Group} {analysis : Analysis} {waiting : Bool} {next : Worker} (idle : post .idle)
    (after : post next) :
    (finishAttempt services now resultId m g analysis waiting next).Always sends post := by
  simp only [finishAttempt, Program.always_bind, Program.always_current, Program.always_lift]
  intro _ _ _ _ _
  split
  · split
    · exact idle
    · rw [Program.always_bind]
      exact finishLocked_always after
  · exact idle

/-- The material of an attempt keeps its revision and its state. -/
def Stays (id : Id) (before after : Store) : Prop :=
  ∀ later, after.materials.get id = some later →
    ∃ m, before.materials.get id = some m ∧ later.revision = m.revision ∧ later.status = m.status

theorem Stays.of_eq {before after : Store} (same : after.materials = before.materials) :
    Stays id before after :=
  fun later found => ⟨later, same ▸ found, rfl, rfl⟩

theorem Stays.write {before m : Material} (found : store.materials.get m.id = some before)
    (sameRevision : m.revision = before.revision) (sameStatus : m.status = before.status) :
    Stays id store (store.putMany [.material m.id m]) := by
  intro later laterFound
  rcases materials_putMany_cases laterFound with member | ⟨kept, -⟩
  · obtain ⟨rfl, rfl⟩ : id = m.id ∧ later = m := by simpa using member
    exact ⟨before, found, sameRevision, sameStatus⟩
  · exact ⟨later, kept, rfl, rfl⟩

theorem stays_of_ended {op : Op Worker} {before : Worker}
    (ends : op.Always (fun _ => True) fun next => next.attempt = none) :
    op.Holds Store.putMany (fun _ _ => True) (fun next after => next.attempt ≠ none →
      before.attempt ≠ none ∧ Stays id store after) store :=
  (ends.holds store).imp (fun _ _ _ => trivial)
    (fun _ _ finished unfinished => absurd finished unfinished)

/-- A step after which the attempt is unfinished changes neither revision nor state. -/
theorem Job.step_stays {job : Job} {phase : Phase} (holds : Published store)
    (carries : Carries id revision (.working job phase)) {cancelled : Bool} {answer : Answer}
    {op : Op Worker}
    (enabled : job.step services now resultId cancelled phase answer = some op) :
    op.Holds Store.putMany (fun _ _ => True) (fun next after => next.attempt ≠ none →
      (Worker.working job phase).attempt ≠ none ∧ Stays id store after) store := by
  have unchanged : ∀ {op : Op Worker}, (Worker.working job phase).attempt ≠ none →
      op.Holds Store.putMany (fun _ _ => False) (fun next _ => Carries id revision next) store →
      op.Holds Store.putMany (fun _ _ => True) (fun next after => next.attempt ≠ none →
        (Worker.working job phase).attempt ≠ none ∧ Stays id store after) store := by
    intro op unfinished commitsNothing
    refine commitsNothing.unchanged.imp (fun _ _ _ => trivial) ?_
    rintro next after ⟨rfl, -⟩ -
    exact ⟨unfinished, .of_eq rfl⟩
  unfold Job.step at enabled
  split at enabled
  case h_24 => cases enabled
  case h_21 => exact unchanged (by simp [Worker.attempt]) (cloudStep_holds carries enabled)
  all_goals obtain rfl := Option.some.inj enabled
  case h_14 => exact stays_of_ended (finishAttempt_always rfl rfl)
  case h_23 =>
    unfold finishLocal
    split <;> exact stays_of_ended (finishAttempt_always rfl rfl)
  case h_22 => exact unchanged (by simp [Worker.attempt]) (acceptFindings_holds carries _ _ _ _)
  case h_4 => exact unchanged (by simp [Worker.attempt]) (openSource_holds carries _)
  case h_9 selection extracted =>
    simp only [storeText, Program.holds_bind, Program.holds_current, Program.holds_lift,
      Store.material_eq_ok]
    intro fresh found
    have owned : store.materials.get fresh.id = some fresh := by
      rw [holds.materialKeyed found]
      exact found
    split
    · exact ⟨trivial, fun _ => ⟨by simp [Worker.attempt],
        .write (m := { fresh with originalText := extracted }) owned rfl rfl⟩⟩
    · exact fun unfinished => absurd rfl unfinished
  case h_19 analysis =>
    cases carries with
    | working keyed sameRevision nameless running =>
        simp only [saveAnalysis, Program.holds_bind, Program.holds_current, Program.holds_lift,
          Store.material_eq_ok]
        intro fresh found
        split
        · rename_i isCurrent
          simp only [attemptIsCurrent, Bool.and_eq_true, beq_iff_eq] at isCurrent
          exact ⟨trivial, fun _ => ⟨by simp [Worker.attempt],
            .write (m := { job.material with analysis := some analysis }) found isCurrent.1.symm
              (running.trans isCurrent.2.symm)⟩⟩
        · exact fun unfinished => absurd rfl unfinished
  case h_20 =>
    simp only [claimCloud, Program.holds_bind, Program.holds_current]
    have reads : Stays id store store := .of_eq rfl
    split
    · exact fun _ => ⟨by simp [Worker.attempt], reads⟩
    · rw [Program.holds_bind, Program.holds_lift]
      intro config _
      split
      · exact fun _ => ⟨by simp [Worker.attempt], reads⟩
      · simp only [Program.holds_bind, Program.holds_lift, Program.holds_refuse]
        exact fun _ _ _ => ⟨trivial, fun _ => ⟨by simp [Worker.attempt], .of_eq rfl⟩⟩
  case h_2 => split <;> simp [Worker.attempt, Stays.of_eq]
  case h_13 =>
    rw [Program.holds_pure]
    exact fun _ => ⟨by simp [Worker.attempt], .of_eq rfl⟩
  all_goals simp [Worker.attempt, Stays.of_eq, saveAiStage, Store.writeRow]

/-- A worker with an unfinished attempt at one subject keeps its revision and its state when
the attempt goes on. -/
theorem Worker.step_stays {worker : Worker} (holds : Published store)
    (carries : Carries id revision worker) {cancelled : Bool} {answer : Answer} {op : Op Worker}
    (enabled : worker.step services now resultId cancelled answer = some op) :
    op.Holds Store.putMany (fun _ _ => True) (fun next after => next.attempt ≠ none →
      worker.attempt ≠ none ∧ Stays id store after) store := by
  unfold Worker.step at enabled
  split at enabled
  · cases enabled
  · obtain rfl := Option.some.inj enabled
    exact fun unfinished => absurd rfl unfinished
  · exact Job.step_stays holds carries enabled
  · obtain rfl := Option.some.inj enabled
    refine stays_of_ended ?_
    simp only [failMaterial, Program.always_bind, Program.always_current, Program.always_lift]
    intro _ _ _
    split <;> rfl
  · cases enabled

/-- A transaction of a worker whose attempt is finished. -/
inductive FinishedRows (id : Id) (store : Store) : List Row → Prop where
  | stage {record : AiStageRecord} : FinishedRows id store [.aiStage id record]
  | failure {m : Material} (failed : m.status = .failed) : FinishedRows id store [.material id m]

/-- A worker whose attempt is finished writes stage records and failures. -/
theorem Worker.step_finished {worker : Worker} (carries : Carries id revision worker) (finished : worker.attempt = none) {cancelled : Bool}
    {answer : Answer} {op : Op Worker}
    (enabled : worker.step services now resultId cancelled answer = some op) :
    op.Holds Store.putMany (FinishedRows id) (fun _ _ => True) store := by
  unfold Worker.step at enabled
  split at enabled
  · cases enabled
  · obtain rfl := Option.some.inj enabled
    trivial
  · rename_i job phase _
    cases carries with
    | working keyed =>
      subst keyed
      cases phase <;> simp only [Worker.attempt, reduceCtorEq] at finished
      cases answer <;> simp only [Job.step, reduceCtorEq, Option.some.injEq] at enabled
      subst enabled
      exact ⟨.stage, trivial⟩
  · obtain rfl := Option.some.inj enabled
    cases carries with
    | settling =>
      simp only [failMaterial, Program.holds_bind, Program.holds_current, Program.holds_lift,
        Store.material_eq_ok]
      intro stored found
      split
      · exact ⟨.failure rfl, trivial⟩
      · trivial
  · cases enabled

/-- After a worker whose attempt is finished a material is the same one, or failed. -/
theorem FinishedRows.material {rows : List Row} (finished : FinishedRows id store rows) {other : Id}
    {later : Material} (found : (store.putMany rows).materials.get other = some later) :
    store.materials.get other = some later ∨ later.status = .failed := by
  cases finished with
  | stage => exact .inl found
  | failure failed =>
    rcases materials_putMany_cases found with member | ⟨kept, -⟩
    · obtain ⟨-, rfl⟩ : other = id ∧ later = _ := by simpa using member
      exact .inr failed
    · exact .inl kept

/-- A transaction of an attempt leaves every material alone which is not its current one. -/
theorem AttemptRows.keeps {fresh rows} (attempt : AttemptRows fresh id revision store rows)
    {other : Id} {m : Material} (found : store.materials.get other = some m)
    (foreign : (other, m.revision) ≠ (id, revision)) :
    (store.putMany rows).materials.get other = some m := by
  rw [← found]
  have absent : ∀ {stored : Material}, Current store id revision stored → other ≠ id := by
    rintro stored current rfl
    obtain rfl := Option.some.inj (found.symm.trans current.found)
    exact foreign (by rw [current.revision])
  apply materials_putMany_of_absent
  intro written member
  cases attempt with
  | stage => simp at member
  | consent => simp at member
  | move current keyed =>
    subst keyed
    exact absent current (by simpa using And.left (by simpa using member))
  | publish current keyed =>
    subst keyed
    exact absent current (by simpa using And.left (by simpa using member))

variable {worker : Worker} {cancelled : Bool} {answer : Answer} {op : Op Worker}
  {allowed : Option Nat}

/-- An attempt which is unfinished after a step was unfinished before it, and the step kept
its material in its revision and in its state. -/
theorem Worker.attempt_goes_on (holds : Published store)
    (unused : store.results.get resultId = none) (carries : Carries id revision worker)
    (enabled : worker.step services now resultId cancelled answer = some op) {attempt : Id × Nat}
    (unfinished : (worker.next (op.execute store allowed).result).attempt = some attempt) :
    attempt = (id, revision) ∧ worker.attempt = some (id, revision) ∧
      Stays id store (op.execute store allowed).state := by
  cases ended : (op.execute store allowed).result with
  | error error => simp [ended, Worker.next] at unfinished
  | ok next =>
    rw [ended] at unfinished
    change next.attempt = some attempt at unfinished
    have carriesNext : Carries id revision next :=
      (Worker.step_holds holds unused carries enabled).run_post ended
    obtain ⟨wasUnfinished, stays⟩ :=
      (Worker.step_stays holds carries enabled).run_post ended (by simp [unfinished])
    obtain ⟨before, beforeAttempt⟩ := Option.ne_none_iff_exists'.mp wasUnfinished
    have subject : ∀ {worker : Worker} {attempt : Id × Nat}, Carries id revision worker →
        worker.attempt = some attempt → attempt = (id, revision) := by
      intro worker attempt carries unfinished
      have working : worker ≠ .idle := by
        rintro rfl
        cases unfinished
      exact Option.some.inj ((Worker.subject_of_attempt unfinished).symm.trans
        (carries.subject working))
    exact ⟨subject carriesNext unfinished, subject carries beforeAttempt ▸ beforeAttempt, stays⟩

/-- A worker which does not own the stored revision of a material leaves it as it is, or
records its failure. -/
theorem Worker.step_foreign (holds : Published store) (unused : store.results.get resultId = none)
    (carries : Carries id revision worker)
    (enabled : worker.step services now resultId cancelled answer = some op) {other : Id}
    {m later : Material} (found : store.materials.get other = some m)
    (foreign : worker.attempt ≠ some (other, m.revision))
    (laterFound : (op.execute store allowed).state.materials.get other = some later) :
    later = m ∨ later.status = .failed := by
  by_cases finished : worker.attempt = none
  · refine Program.Holds.run_invariant (fun store : Store => ∀ later,
      store.materials.get other = some later → later = m ∨ later.status = .failed) ?_
      (Worker.step_finished carries finished enabled) ?_ allowed later laterFound
    · intro store rows before rowsFinished later laterFound
      rcases rowsFinished.material laterFound with kept | failed
      · exact before later kept
      · exact .inr failed
    · intro later laterFound
      exact .inl (Option.some.inj (laterFound.symm.trans found))
  · left
    obtain ⟨attempt, unfinished⟩ := Option.ne_none_iff_exists'.mp finished
    have subject : worker.subject = some (id, revision) := by
      refine carries.subject ?_
      rintro rfl
      cases unfinished
    obtain rfl : attempt = (id, revision) :=
      Option.some.inj ((Worker.subject_of_attempt unfinished).symm.trans subject)
    have kept : (op.execute store allowed).state.materials.get other = some m :=
      Program.Holds.run_invariant (fun store : Store => store.materials.get other = some m)
      (fun before attempt => attempt.keeps before
        (fun same => foreign (by rw [unfinished, same])))
      (Worker.step_holds holds unused carries enabled) found allowed
    exact Option.some.inj (laterFound.symm.trans kept)

/-- A claim attempt which took nothing leaves the process as it is. -/
theorem Process.afterClaim_unclaimed (process : Process) {index : Nat}
    {result : Except Error (Option (Material × Group))}
    (unclaimed : ∀ claimed, result ≠ .ok (some claimed)) :
    process.afterClaim index result = process := by
  unfold Process.afterClaim
  split
  · exact absurd rfl (unclaimed _)
  · rfl
  · rfl

/-- A claim takes one queued material of the store, or leaves everything as it is. -/
theorem claimNext_outcome (holds : Published store) (materialId : Id) (allowed : Option Nat) :
    let outcome := (claimNext materialId).execute store allowed
    outcome.signals = [] ∧
      ((outcome.state = store ∧ ∀ claimed, outcome.result ≠ .ok (some claimed)) ∨
        ∃ m g, store.materials.get m.id = some m ∧ m.status = .queued ∧
          outcome.state = store.putMany [.material m.id (claimedMaterial m g)] ∧
          outcome.result = .ok (some (claimedMaterial m g, g))) := by
  simp only [claimNext, Op.execute, bind, Program.bind, Program.current, Program.run]
  cases found : store.material materialId with
  | error error => simp [Program.lift, Program.bind, Program.run]
  | ok m =>
    rw [Store.material_eq_ok] at found
    obtain rfl := holds.materialKeyed found
    cases groupFound : Store.require (store.groups.get m.groupId) with
    | error error => simp [Program.lift, Program.bind, Program.run, groupFound]
    | ok g =>
      simp only [Program.lift, Program.bind, groupFound]
      split
      · cases allowed with
        | none => exact ⟨rfl, .inr ⟨m, g, found, ‹_›, rfl, rfl⟩⟩
        | some count =>
          cases count with
          | zero => simp [Program.commit, Program.bind, Program.run]
          | succ _ => exact ⟨rfl, .inr ⟨m, g, found, ‹_›, rfl, rfl⟩⟩
      · exact ⟨rfl, .inl ⟨rfl, fun _ claimed => by cases claimed⟩⟩

end Steps

/-- An unfinished attempt at the stored revision is owned by one worker, and its material
does not wait. -/
def Exclusive (world : World) : Prop :=
  ∀ {process index id revision m}, world.live = some process →
    (process.workers index).attempt = some (id, revision) →
    world.store.materials.get id = some m → m.revision = revision →
    m.status.isWaiting = false ∧
      ∀ other, (process.workers other).attempt = some (id, revision) → other = index


/-- The stored material of an attempt at the revision which it carries, before an event that
takes no revision back. -/
theorem Sound.before_of_attempt {world next : World} {process : Process} {index : Nat} {id : Id}
    {revision : Nat} {later : Material} (sound : Sound world)
    (grows : Grows world.store next.store) (live : world.live = some process)
    (attempt : (process.workers index).attempt = some (id, revision))
    (found : next.store.materials.get id = some later) (sameRevision : later.revision = revision) :
    ∃ m, world.store.materials.get id = some m ∧ m.revision = revision := by
  have working : process.workers index ≠ .idle := by
    intro idle
    simp [idle, Worker.attempt] at attempt
  obtain ⟨claimed, claimedRevision, m, carries, stored, before⟩ := sound.carried live working
  obtain ⟨rfl, rfl⟩ : claimed = id ∧ claimedRevision = revision := by
    simpa using (carries.subject working).symm.trans (Worker.subject_of_attempt attempt)
  obtain ⟨last, lastFound, lastLater⟩ := grows _ _ stored
  obtain rfl : last = later := Option.some.inj (lastFound.symm.trans found)
  exact ⟨m, stored, by omega⟩

/-- Every event keeps the attempts exclusive. -/
theorem Exclusive.step {services : Services} {pool : Nat} {world next : World} {event : Event}
    (sound : Sound world) (exclusive : Exclusive world)
    (taken : Workspace.step services pool world event = some next) : Exclusive next := by
  have grows := (sound.kept taken).grows
  have areFresh := (stepped_of_step taken).1.2
  intro after index id revision later alive attempt found sameRevision
  cases (stepped_of_step taken).2 with
  | @request process now request allowed live =>
      obtain rfl := Option.some.inj alive
      rw [Process.signals_workers] at attempt ⊢
      obtain ⟨m, stored, isCurrent⟩ := sound.before_of_attempt grows live attempt found sameRevision
      obtain ⟨settled, owner⟩ := exclusive live attempt stored isCurrent
      obtain ⟨same, sameFound, -, -, settles⟩ := request_supersedes sound taken _ _ stored
      obtain rfl : same = later := Option.some.inj (sameFound.symm.trans found)
      rcases settles settled with sameStatus | strictly
      · exact ⟨by rw [sameStatus]; exact settled, owner⟩
      · omega
  | crash live => cases alive
  | @start now running allowed outcome stopped listed executed =>
      obtain rfl := eq_start_of_live alive
      cases attempt
  | @claim process claimant materialId allowed outcome live inPool idle executed =>
      obtain rfl := Option.some.inj alive
      rw [Process.signals_workers] at attempt ⊢
      subst executed
      rcases (claimNext_outcome sound.published materialId allowed).2 with
        ⟨same, unclaimed⟩ | ⟨m, g, stored, queued, state, claimed⟩
      · rw [process.afterClaim_unclaimed unclaimed] at attempt ⊢
        exact exclusive live attempt (same ▸ found) sameRevision
      · have free : ∀ other, (process.workers other).attempt ≠ some (m.id, m.revision) := by
          intro other owns
          have settled := (exclusive live owns stored rfl).1
          simp [queued, Status.isWaiting] at settled
        replace found : (world.store.putMany [.material m.id (claimedMaterial m g)]).materials.get
            id = some later := by
          rw [← state]
          exact found
        rw [claimed] at attempt ⊢
        simp only [Process.afterClaim, Process.claimed, Process.setWorker_workers] at attempt ⊢
        have owns : ∀ other, (if other = claimant then
              Worker.working ⟨claimedMaterial m g, g, process.nextToken⟩ .selecting
            else process.workers other).attempt = some (id, revision) →
            (other = claimant ∧ id = m.id ∧ revision = m.revision) ∨
              (other ≠ claimant ∧ (process.workers other).attempt = some (id, revision)) := by
          intro other owns
          split at owns
          · obtain ⟨rfl, rfl⟩ : m.id = id ∧ m.revision = revision := by
              simpa [Worker.attempt, claimedMaterial] using owns
            exact .inl ⟨‹_›, rfl, rfl⟩
          · exact .inr ⟨‹_›, owns⟩
        rcases owns index attempt with ⟨rfl, rfl, rfl⟩ | ⟨different, owned⟩
        · obtain rfl : claimedMaterial m g = later := by simpa [Store.writeRow] using found
          refine ⟨rfl, fun other owned => ?_⟩
          rcases owns other owned with ⟨same, -⟩ | ⟨-, owned⟩
          · exact same
          · exact absurd owned (free other)
        · by_cases same : id = m.id
          · obtain rfl : later = claimedMaterial m g := by
              simpa [Store.writeRow, same, eq_comm] using found
            exact absurd (same ▸ sameRevision ▸ owned) (free index)
          · have kept : world.store.materials.get id = some later := by
              simpa [Store.writeRow, same] using found
            obtain ⟨settled, owner⟩ := exclusive live owned kept sameRevision
            refine ⟨settled, fun other otherOwned => ?_⟩
            rcases owns other otherOwned with ⟨-, sameId, -⟩ | ⟨-, otherOwned⟩
            · exact absurd sameId same
            · exact owner other otherOwned
  | @work process worked now resultId answer allowed op outcome live enabled executed =>
      obtain rfl := Option.some.inj alive
      rw [Process.signals_workers] at attempt ⊢
      have atWork : process.workers worked ≠ .idle := by
        intro idle
        simp [idle, Worker.step] at enabled
      obtain ⟨claimed, claimedRevision, -, carries, -, -⟩ := sound.carried live atWork
      have unused := (sound.known.unused areFresh).result resultId List.mem_cons_self
      have holds := Worker.step_holds sound.published unused carries enabled
      subst executed
      have owns : ∀ {other}, ((process.setWorker worked ((process.workers worked).next
          (op.execute world.store allowed).result)).workers other).attempt = some (id, revision) →
          (process.workers other).attempt = some (id, revision) := by
        intro other owned
        rw [Process.setWorker_workers] at owned
        split at owned
        · obtain ⟨same, before, -⟩ :=
            Worker.attempt_goes_on sound.published unused carries enabled owned
          subst other
          rw [before, same]
        · exact owned
      obtain ⟨m, stored, isCurrent⟩ :=
        sound.before_of_attempt grows live (owns attempt) found sameRevision
      obtain ⟨settled, owner⟩ := exclusive live (owns attempt) stored isCurrent
      refine ⟨?_, fun other owned => owner other (owns owned)⟩
      by_cases same : index = worked
      · rw [Process.setWorker_workers, if_pos same] at attempt
        obtain ⟨subject, -, stays⟩ :=
          Worker.attempt_goes_on sound.published unused carries enabled attempt
        obtain ⟨rfl, rfl⟩ := Prod.mk.inj subject
        obtain ⟨before, beforeFound, -, status⟩ := stays later found
        rw [status, Option.some.inj (beforeFound.symm.trans stored)]
        exact settled
      · have foreign : (process.workers worked).attempt ≠ some (id, m.revision) := by
          rw [isCurrent]
          exact fun owned => same (owner worked owned).symm
        rcases Worker.step_foreign sound.published unused carries enabled stored foreign found with
          rfl | failed
        · exact settled
        · rw [failed]
          rfl

theorem exclusive_of_reachable {services : Services} {pool : Nat} {world : World}
    (reachable : (machine services pool).Reachable World.initial world) : Exclusive world :=
  (reachable.invariant (fun world => Sound world ∧ Exclusive world)
    ⟨Sound.initial, fun live => by cases live⟩
    (fun before taken => ⟨before.1.step taken, Exclusive.step before.1 before.2 taken⟩)).2

/-! ## Lost attempts -/

/-- The attempt at a revision can no longer be current: a later revision is stored, or this
one has ended in a state which only a later revision leaves. -/
def Lost (store : Store) (id : Id) (revision : Nat) : Prop :=
  ∃ m, store.materials.get id = some m ∧ (revision < m.revision ∨
    (m.revision = revision ∧ m.status.isWaiting = false ∧ m.status ≠ .running))

/-- Materials which neither wait nor run keep their state at their revision. -/
def Rests (before after : Store) : Prop :=
  ∀ id m, before.materials.get id = some m → m.status.isWaiting = false → m.status ≠ .running →
    ∃ later, after.materials.get id = some later ∧
      (later.status = m.status ∨ m.revision < later.revision)

/-- An unfinished attempt whose material is not running at its revision is lost. -/
theorem Exclusive.lost {world : World} (sound : Sound world) (exclusive : Exclusive world)
    {process : Process} {index : Nat} {id : Id} {revision : Nat} {m : Material}
    (live : world.live = some process)
    (attempt : (process.workers index).attempt = some (id, revision))
    (found : world.store.materials.get id = some m)
    (changed : ¬ (m.revision = revision ∧ m.status = .running)) :
    Lost world.store id revision := by
  have working : process.workers index ≠ .idle := by
    intro idle
    simp [idle, Worker.attempt] at attempt
  obtain ⟨claimed, claimedRevision, stored, carries, storedFound, before⟩ :=
    sound.carried live working
  obtain ⟨rfl, rfl⟩ : claimed = id ∧ claimedRevision = revision := by
    simpa using (carries.subject working).symm.trans (Worker.subject_of_attempt attempt)
  obtain rfl : stored = m := Option.some.inj (storedFound.symm.trans found)
  refine ⟨stored, found, ?_⟩
  rcases Nat.lt_or_eq_of_le before with later | same
  · exact .inl later
  · exact .inr ⟨same.symm, (exclusive live attempt found same.symm).1,
      fun running => changed ⟨same.symm, running⟩⟩

theorem Lost.not_current {store : Store} {id : Id} {revision : Nat} (lost : Lost store id revision)
    (stored : Material) : ¬ Current store id revision stored := by
  obtain ⟨m, found, later | ⟨-, -, stopped⟩⟩ := lost <;> intro current <;>
    obtain rfl := Option.some.inj (found.symm.trans current.found)
  · exact absurd current.revision (Nat.ne_of_gt later)
  · exact stopped current.running

section Rests

variable {store : Store} {rows : List Row}

/-- Rows which write no material unless it is queued or running. -/
def Spares (store : Store) (rows : List Row) : Prop :=
  ∀ id m, store.materials.get id = some m → m.status ≠ .queued → m.status ≠ .running →
    ∀ other, .material id other ∉ rows

theorem Spares.kept (spares : Spares store rows) {id : Id} {m : Material}
    (found : store.materials.get id = some m) (unqueued : m.status ≠ .queued)
    (stopped : m.status ≠ .running) : (store.putMany rows).materials.get id = some m := by
  rw [materials_putMany_of_absent (spares id m found unqueued stopped)]
  exact found

theorem Spares.rests (spares : Spares store rows) : Rests store (store.putMany rows) := by
  intro id m found settled stopped
  have unqueued : m.status ≠ .queued := by
    intro queued
    simp [queued, Status.isWaiting] at settled
  exact ⟨m, spares.kept found unqueued stopped, .inl rfl⟩

theorem AttemptRows.spares {fresh : List Id} {id : Id} {revision : Nat}
    (attempt : AttemptRows fresh id revision store rows) : Spares store rows := by
  intro other m found _ stopped written member
  have foreign : ∀ {stored : Material}, Current store id revision stored → other ≠ id := by
    rintro stored current rfl
    obtain rfl := Option.some.inj (found.symm.trans current.found)
    exact stopped current.running
  cases attempt with
  | stage => simp at member
  | consent => simp at member
  | move current keyed =>
    subst keyed
    exact foreign current (by simpa using And.left (by simpa using member))
  | publish current keyed =>
    subst keyed
    exact foreign current (by simpa using And.left (by simpa using member))

theorem ClaimRows.spares (claim : ClaimRows store rows) : Spares store rows := by
  cases claim with
  | claim claimedFound queued =>
    intro other m found unqueued _ written member
    obtain ⟨rfl, -⟩ : other = _ ∧ written = _ := by simpa using member
    obtain rfl := Option.some.inj (found.symm.trans claimedFound)
    exact unqueued queued

theorem RecoveryRows.spares (recovers : RecoveryRows store rows) : Spares store rows := by
  intro other m found unqueued stopped written member
  cases recovers with
  | stage => simp at member
  | requeue storedFound running =>
    obtain ⟨rfl, -⟩ : other = _ ∧ written = _ := by simpa using member
    obtain rfl := Option.some.inj (found.symm.trans storedFound)
    exact stopped running
  | interrupt storedFound recorded stageRunning current =>
    obtain ⟨rfl, -⟩ : other = _ ∧ written = _ := by simpa using member
    obtain rfl := Option.some.inj (found.symm.trans storedFound)
    exact current.unsettled.elim stopped unqueued

theorem Supersedes.rests {before after : Store} (supersedes : Supersedes before after) :
    Rests before after := by
  intro id m found settled stopped
  obtain ⟨later, laterFound, -, -, settles⟩ := supersedes id m found
  exact ⟨later, laterFound, settles settled⟩

/-- A lost attempt stays lost. -/
theorem Lost.after {before after : Store} {id : Id} {revision : Nat}
    (lost : Lost before id revision) (grows : Grows before after) (rests : Rests before after) :
    Lost after id revision := by
  obtain ⟨m, found, lost⟩ := lost
  obtain ⟨later, laterFound, isLater⟩ := grows id m found
  refine ⟨later, laterFound, ?_⟩
  rcases lost with strictly | ⟨same, settled, stopped⟩
  · exact .inl (Nat.lt_of_lt_of_le strictly isLater)
  · obtain ⟨other, otherFound, sameStatus | strictly⟩ := rests id m found settled stopped
    · obtain rfl := Option.some.inj (otherFound.symm.trans laterFound)
      rcases Nat.lt_or_eq_of_le isLater with strictly | sameRevision
      · exact .inl (same ▸ strictly)
      · exact .inr ⟨sameRevision ▸ same, sameStatus ▸ settled, sameStatus ▸ stopped⟩
    · obtain rfl := Option.some.inj (otherFound.symm.trans laterFound)
      exact .inl (same ▸ strictly)

end Rests

/-- No event brings a lost attempt back. -/
theorem Lost.step {services : Services} {pool : Nat} {world next : World} {event : Event}
    {id : Id} {revision : Nat} (sound : Sound world) (lost : Lost world.store id revision)
    (taken : Workspace.step services pool world event = some next) :
    Lost next.store id revision := by
  refine sound.store_invariant taken (fun store => Lost store id revision) ?_ ?_ ?_ ?_ lost
  · exact fun _ _ _ lost lawful => lost.after lawful.grows lawful.supersedes.rests
  · exact fun _ lost attempt => lost.after attempt.grows attempt.spares.rests
  · exact fun lost claim => lost.after claim.grows claim.spares.rests
  · exact fun lost recovers => lost.after recovers.grows recovers.spares.rests

end LawyerAssistance.Workspace

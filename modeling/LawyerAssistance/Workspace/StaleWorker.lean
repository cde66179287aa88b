import LawyerAssistance.Workspace.Results

/-!
# Stale workers

A request which changes a running material gives it a later revision. From then on no
step of a worker which claimed an earlier revision writes a material or a result,
whatever other requests and workers do in between.
-/

namespace LawyerAssistance.Workspace

/-- The states in which a consent puts a material back into the queue. -/
def Status.isWaiting : Status → Bool
  | .queued | .awaitingConsent | .needsReview => true
  | .running | .ready | .failed | .cancelled | .revoked => false

/-- What requests do to the materials of a store: no revision goes back, and a running
attempt or a ready material is left as it is or superseded by a later revision. Only a waiting
material changes its state at the same revision. -/
def Supersedes (before after : Store) : Prop :=
  ∀ id m, before.materials.get id = some m →
    ∃ later, after.materials.get id = some later ∧ m.revision ≤ later.revision ∧
      (m.status = .running ∨ m.status = .ready → later = m ∨ m.revision < later.revision) ∧
      (m.status.isWaiting = false → later.status = m.status ∨ m.revision < later.revision)

theorem Supersedes.refl (store : Store) : Supersedes store store :=
  fun _ m found => ⟨m, found, le_rfl, fun _ => .inl rfl, fun _ => .inl rfl⟩

theorem Supersedes.trans {first second third : Store} (left : Supersedes first second)
    (right : Supersedes second third) : Supersedes first third := by
  intro id m found
  obtain ⟨middle, middleFound, middleLater, middleRunning, middleSettled⟩ := left id m found
  obtain ⟨last, lastFound, lastLater, lastRunning, lastSettled⟩ := right id middle middleFound
  refine ⟨last, lastFound, Nat.le_trans middleLater lastLater, fun running => ?_,
    fun settled => ?_⟩
  · rcases middleRunning running with rfl | later
    · exact lastRunning running
    · exact .inr (Nat.lt_of_lt_of_le later lastLater)
  · rcases middleSettled settled with same | later
    · rcases lastSettled (same ▸ settled) with sameAgain | later
      · exact .inl (sameAgain.trans same)
      · exact .inr (Nat.lt_of_le_of_lt middleLater later)
    · exact .inr (Nat.lt_of_lt_of_le later lastLater)

/-- A request which writes a material that does not wait gives it a later revision, or
leaves it cancelled or revoked as it is. -/
theorem Rewrite.strictly_later {fresh : List Id} {store : Store} {rows : List Row}
    (rewrites : Rewrite fresh store rows) {id : Id} {m stored : Material}
    (member : .material id m ∈ rows) (found : store.materials.get id = some stored)
    (settled : stored.status.isWaiting = false) :
    stored.revision < m.revision ∨
      (m.status = stored.status ∧ stored.status ∈ [Status.cancelled, .revoked]) := by
  have move := rewrites.moves member
  rw [found] at move
  cases move with
  | revised strictly => exact .inl strictly
  | requeued waiting => cases status : stored.status <;> simp_all [Status.isWaiting]
  | kept stopped => exact .inr ⟨rfl, stopped⟩

/-- A lawful transaction supersedes running attempts. -/
theorem Lawful.supersedes {fresh : List Id} {store : Store} {rows : List Row}
    (lawful : Lawful fresh store rows) : Supersedes store (store.putMany rows) := by
  intro id m found
  obtain ⟨later, laterFound, laterRevision⟩ := lawful.grows id m found
  have settles : m.status.isWaiting = false → later = m ∨ m.revision < later.revision ∨
      (later.status = m.status ∧ m.status ∈ [Status.cancelled, .revoked]) := by
    intro settled
    rcases materials_putMany_cases laterFound with member | ⟨kept, -⟩
    · right
      cases lawful with
      | rewrite rewrites => exact rewrites.strictly_later member found settled
      | consent rewrites => exact rewrites.strictly_later (by simpa using member) found settled
      | @publish before written r revoked publishes isFresh strictly task =>
          obtain ⟨rfl, rfl⟩ : id = written.id ∧ later = written := by
            rcases revokedResult_eq_ok.mp publishes.revokes with ⟨-, rfl⟩ | ⟨_, _, -, -, rfl⟩ <;>
              simpa using member
          obtain rfl : before = m := Option.some.inj (publishes.found.symm.trans found)
          exact .inl strictly
    · exact .inl (Option.some.inj (kept.symm.trans found))
  refine ⟨later, laterFound, laterRevision, fun held => ?_, fun settled => ?_⟩
  · have settled : m.status.isWaiting = false := by
      rcases held with status | status <;> simp [status, Status.isWaiting]
    rcases settles settled with same | strictly | ⟨-, stopped⟩
    · exact .inl same
    · exact .inr strictly
    · rcases held with status | status <;> simp [status] at stopped
  · rcases settles settled with rfl | strictly | ⟨same, -⟩
    · exact .inl rfl
    · exact .inr strictly
    · exact .inl same

/-- A request supersedes the running attempts which it touches. -/
theorem request_supersedes {services : Services} {pool : Nat} {world next : World} {now : Nat}
    {request : Request} {allowed : Option Nat} (sound : Sound world)
    (taken : step services pool world (.request now request allowed) = some next) :
    Supersedes world.store next.store := by
  obtain ⟨⟨-, areFresh⟩, stepped⟩ := stepped_of_step taken
  cases stepped with
  | request live =>
      exact (request.lawful sound.published services now
        (sound.known.unused areFresh)).run_relation Supersedes.refl Supersedes.trans
        Lawful.supersedes allowed

/-- A transaction of an attempt which is not current leaves materials and results alone. -/
theorem AttemptRows.unchanged_of_stale {fresh : List Id} {id : Id} {revision : Nat} {store : Store}
    {rows : List Row} (attempt : AttemptRows fresh id revision store rows) {m : Material}
    (found : store.materials.get id = some m) (stale : m.revision ≠ revision) :
    (store.putMany rows).materials = store.materials ∧
      (store.putMany rows).results = store.results := by
  have notCurrent : ∀ stored, ¬ Current store id revision stored := by
    intro stored current
    obtain rfl : m = stored := Option.some.inj (found.symm.trans current.found)
    exact stale current.revision
  cases attempt with
  | stage => exact ⟨rfl, rfl⟩
  | consent current => exact absurd current (notCurrent _)
  | move current => exact absurd current (notCurrent _)
  | publish current => exact absurd current (notCurrent _)

/-- A worker whose material has a later revision. -/
structure Stale (world : World) (process : Process) (index : Nat) (id : Id) (revision : Nat)
    (m : Material) : Prop where
  live : world.live = some process
  subject : (process.workers index).subject = some (id, revision)
  found : world.store.materials.get id = some m
  later : revision < m.revision

/-- A step of a stale worker writes no material and no result, and leaves the worker idle
or as stale as it was. -/
theorem Stale.step {services : Services} {pool : Nat} {world next : World} {process : Process}
    {index : Nat} {id : Id} {revision : Nat} {m : Material} {now : Nat} {resultId : Id}
    {answer : Answer} {allowed : Option Nat} (stale : Stale world process index id revision m)
    (sound : Sound world)
    (taken : Workspace.step services pool world (.work index now resultId answer allowed) =
      some next) :
    (next.store.materials = world.store.materials ∧ next.store.results = world.store.results) ∧
      ∃ after, next.live = some after ∧
        (after.workers index = .idle ∨ Stale next after index id revision m) := by
  obtain ⟨⟨-, areFresh⟩, stepped⟩ := stepped_of_step taken
  cases stepped with
  | @work other _ _ _ _ _ op outcome live enabled executed =>
      obtain rfl : process = other := Option.some.inj (stale.live.symm.trans live)
      have subject := stale.subject
      have working : process.workers index ≠ .idle := by
        intro idle
        simp [idle, Worker.subject] at subject
      obtain ⟨claimed, claimedRevision, -, carries, -⟩ := sound.carried live working
      obtain ⟨rfl, rfl⟩ : claimed = id ∧ claimedRevision = revision := by
        simpa using (carries.subject working).symm.trans subject
      have unused := (sound.known.unused areFresh).result resultId List.mem_cons_self
      have holds := Worker.step_holds sound.published unused carries enabled
      have unchanged : outcome.state.materials = world.store.materials ∧
          outcome.state.results = world.store.results := by
        subst executed
        refine Program.Holds.run_invariant (fun store : Store =>
          store.materials = world.store.materials ∧ store.results = world.store.results) ?_ holds
          ⟨rfl, rfl⟩ allowed
        rintro store rows ⟨materials, results⟩ attempt
        have kept := attempt.unchanged_of_stale (by rw [materials]; exact stale.found)
          (Nat.ne_of_gt stale.later)
        exact ⟨kept.1.trans materials, kept.2.trans results⟩
      refine ⟨unchanged, _, rfl, ?_⟩
      by_cases idle : (process.workers index).next outcome.result = .idle
      · left
        rw [Process.signals_workers, Process.setWorker_workers, if_pos rfl, idle]
      · right
        have carriesNext : Carries claimed claimedRevision
            ((process.workers index).next outcome.result) := by
          subst executed
          cases ended : (op.execute world.store allowed).result with
          | ok after => exact holds.run_post ended
          | error error => exact carries.failed error
        refine ⟨rfl, ?_, ?_, stale.later⟩
        · rw [Process.signals_workers, Process.setWorker_workers, if_pos rfl]
          exact carriesNext.subject idle
        · change outcome.state.materials.get claimed = some m
          rw [unchanged.1]
          exact stale.found

/-- An event which is a step of one worker. -/
def Event.isStepOf (index : Nat) : Event → Prop
  | .work worker .. => worker = index
  | _ => False

/-- An idle worker takes no step before it claims a material. -/
theorem run_of_idle {services : Services} {pool index : Nat} {own : List Event}
    (ownSteps : ∀ event ∈ own, event.isStepOf index) {world final : World} {process : Process}
    (live : world.live = some process) (idle : process.workers index = .idle)
    (runs : (machine services pool).run world own = some final) : final = world := by
  cases own with
  | nil => exact (Option.some.inj runs).symm
  | cons event rest =>
      obtain ⟨next, taken, -⟩ := (machine services pool).run_cons_eq_some.mp runs
      match event, ownSteps event List.mem_cons_self with
      | .work _ now resultId answer allowed, rfl =>
          cases (stepped_of_step taken).2 with
          | work otherLive enabled executed =>
              obtain rfl := Option.some.inj (live.symm.trans otherLive)
              simp [idle, Worker.step] at enabled

/-- The steps of a stale worker, to its last one, leave materials and results alone. -/
theorem Stale.run {services : Services} {pool : Nat} {index : Nat} {id : Id} {revision : Nat}
    {m : Material} {own : List Event} (ownSteps : ∀ event ∈ own, event.isStepOf index)
    {world final : World} {process : Process} (sound : Sound world)
    (stale : Stale world process index id revision m)
    (runs : (machine services pool).run world own = some final) :
    final.store.materials = world.store.materials ∧ final.store.results = world.store.results := by
  induction own generalizing world process with
  | nil =>
      cases runs
      exact ⟨rfl, rfl⟩
  | cons event rest inductionHypothesis =>
      obtain ⟨next, taken, runsRest⟩ := (machine services pool).run_cons_eq_some.mp runs
      have restSteps : ∀ other ∈ rest, other.isStepOf index :=
        fun other member => ownSteps other (List.mem_cons_of_mem _ member)
      match event, ownSteps event List.mem_cons_self with
      | .work _ now resultId answer allowed, rfl =>
          obtain ⟨⟨materials, results⟩, after, live, idle | staleNext⟩ := stale.step sound taken
          · obtain rfl := run_of_idle restSteps live idle runsRest
            exact ⟨materials, results⟩
          · obtain ⟨restMaterials, restResults⟩ :=
              inductionHypothesis restSteps (sound.step taken) staleNext runsRest
            exact ⟨restMaterials.trans materials, restResults.trans results⟩

theorem grows_of_run {services : Services} {pool : Nat} {world final : World}
    {events : List Event} (sound : Sound world)
    (runs : (machine services pool).run world events = some final) :
    Grows world.store final.store :=
  Machine.run_relation Sound (fun before after : World => Grows before.store after.store)
    (fun world => .refl world.store) Grows.trans
    (fun sound taken => ⟨sound.step taken, (sound.kept taken).grows⟩) sound runs

/-- A request which changes the revision of a claimed material, or moves it out of the
state which the worker claimed, gives it a revision after the claimed one. -/
theorem later_of_changed {services : Services} {pool : Nat} {before after : World}
    {process : Process} {index : Nat} {id : Id} {revision : Nat} {m changed : Material}
    {now : Nat} {request : Request} {allowed : Option Nat} (sound : Sound before)
    (live : before.live = some process)
    (attempt : (process.workers index).subject = some (id, revision))
    (stored : before.store.materials.get id = some m)
    (taken : step services pool before (.request now request allowed) = some after)
    (storedAfter : after.store.materials.get id = some changed)
    (changes : changed.revision ≠ m.revision ∨
      (m.revision = revision ∧ m.status = .running ∧
        ¬ (changed.revision = revision ∧ changed.status = .running))) :
    revision < changed.revision := by
  have working : process.workers index ≠ .idle := by
    intro idle
    simp [idle, Worker.subject] at attempt
  obtain ⟨claimed, claimedRevision, owned, carries, found, before⟩ := sound.carried live working
  obtain ⟨rfl, rfl⟩ : claimed = id ∧ claimedRevision = revision := by
    simpa using (carries.subject working).symm.trans attempt
  obtain rfl : owned = m := Option.some.inj (found.symm.trans stored)
  obtain ⟨later, laterFound, grows, running, -⟩ := request_supersedes sound taken _ _ stored
  obtain rfl : later = changed := Option.some.inj (laterFound.symm.trans storedAfter)
  rcases changes with revisionChanged | ⟨sameRevision, isRunning, moved⟩
  · omega
  · rcases running (.inl isRunning) with rfl | strictly
    · exact absurd ⟨sameRevision, isRunning⟩ moved
    · omega

/-- A worker whose material a request has changed writes no material and no result: from
any later point of the run, whatever happened before it, the worker's steps leave the
records as they are there. -/
theorem stale_worker_writes_nothing {services : Services} {pool : Nat}
    {before after middle final : World} {process atMiddle : Process} {index : Nat} {id : Id}
    {revision : Nat} {m changed : Material} {now : Nat} {request : Request} {allowed : Option Nat}
    {events own : List Event}
    (reachable : (machine services pool).Reachable World.initial before)
    (live : before.live = some process)
    (attempt : (process.workers index).subject = some (id, revision))
    (stored : before.store.materials.get id = some m)
    (taken : (machine services pool).step before (.request now request allowed) = some after)
    (storedAfter : after.store.materials.get id = some changed)
    (changes : changed.revision ≠ m.revision ∨
      (m.revision = revision ∧ m.status = .running ∧
        ¬ (changed.revision = revision ∧ changed.status = .running)))
    (runs : (machine services pool).run after events = some middle)
    (liveAtMiddle : middle.live = some atMiddle)
    (sameAttempt : (atMiddle.workers index).subject = some (id, revision))
    (ownSteps : ∀ event ∈ own, event.isStepOf index)
    (runsOwn : (machine services pool).run middle own = some final) :
    final.store.materials = middle.store.materials ∧
      final.store.results = middle.store.results := by
  have sound := sound_of_reachable reachable
  have later := later_of_changed sound live attempt stored taken storedAfter changes
  have soundAfter : Sound after := sound.step taken
  obtain ⟨last, lastFound, lastLater⟩ := grows_of_run soundAfter runs _ _ storedAfter
  have soundMiddle : Sound middle := Machine.run_invariant Sound Sound.step soundAfter runs
  have stale : Stale middle atMiddle index id revision last :=
    ⟨liveAtMiddle, sameAttempt, lastFound, Nat.lt_of_lt_of_le later lastLater⟩
  exact stale.run ownSteps soundMiddle runsOwn

/-- The submitted file is claimed by the first worker. -/
def claimedByFirst : List Event := submitted ++ [.claim 0 "mat" none]

/-- Its task is cancelled, retried and claimed again by the second worker. -/
def claimedAgain : List Event :=
  [.request 4 (.retryTask "task") none, .claim 1 "mat" none]

/-- The first worker goes on with the cancelled attempt and settles its failure. -/
def staleSteps : List Event :=
  [.work 0 5 "w1" (.selected (.error (.new "ai_model_required"))) none,
    .work 0 5 "w2" (.admitted (.ok ())) none,
    .work 0 5 "w3" .proceed none]

/-- The new attempt at a cancelled and retried material survives the stale worker. -/
theorem stale_worker_writes_nothing_after_retry :
    (worldAfter plainServices 2 (claimedByFirst ++ [.request 3 (.cancelTask "task") none] ++ claimedAgain ++
        staleSteps)).store.materials =
      (worldAfter plainServices 2 (claimedByFirst ++ [.request 3 (.cancelTask "task") none] ++
        claimedAgain)).store.materials := by
  let cancels : List Event := [.request 3 (.cancelTask "task") none]
  have atWork : (worldAfter plainServices 2 claimedByFirst).live.map (fun process =>
      (process.workers 0).subject) = some (some ("mat", 1)) := by decide +kernel
  have stillAtWork : (worldAfter plainServices 2 (claimedByFirst ++ cancels ++ claimedAgain)).live.map
      (fun process => (process.workers 0).subject) = some (some ("mat", 1)) := by decide +kernel
  have before : ((worldAfter plainServices 2 claimedByFirst).store.materials.get "mat").map
      (fun m => (m.revision, m.status)) = some (1, .running) := by decide +kernel
  have after : ((worldAfter plainServices 2 (claimedByFirst ++ cancels)).store.materials.get "mat").map
      (fun m => (m.revision, m.status)) = some (2, .cancelled) := by decide +kernel
  obtain ⟨process, live, attempt⟩ := Option.map_eq_some_iff.mp atWork
  obtain ⟨atMiddle, liveAtMiddle, sameAttempt⟩ := Option.map_eq_some_iff.mp stillAtWork
  obtain ⟨m, stored, wasRunning⟩ := Option.map_eq_some_iff.mp before
  obtain ⟨changed, storedAfter, isCancelled⟩ := Option.map_eq_some_iff.mp after
  have taken := @worldAfter_run plainServices 2 claimedByFirst cancels (by decide +kernel)
  rw [Machine.run_singleton] at taken
  refine (stale_worker_writes_nothing (worldAfter_reachable (by decide +kernel)) live attempt stored
    taken storedAfter (.inl ?_) (worldAfter_run (by decide +kernel)) liveAtMiddle sameAttempt ?_
    (worldAfter_run (by decide +kernel))).1
  · simp_all
  · simp [staleSteps, Event.isStepOf]

end LawyerAssistance.Workspace

import LawyerAssistance.Workspace.Ownership

/-!
# Uses of cloud consents

What single steps do to consents and to their uses. A worker in the cloud leg uses a
consent for its material; the use is stored when the worker claims it, and every poll
happens under a stored, unexpired consent which records the material at its present
revision and source. Every event has one of the three effects of `UseEffect`.
-/

namespace LawyerAssistance.Workspace

open PrivacyText

/-- The stored consent allows a poll at this time: it is not expired and records the
material at the revision and the source which are stored, and the attempt is running. -/
def PollAuthorized (now : Nat) (store : Store) (poll : CloudPoll) : Prop :=
  ∃ m taskId c, store.materials.get poll.materialId = some m ∧ m.revision = poll.revision ∧
    m.status = .running ∧ store.consents.get taskId = some c ∧ c.id = poll.consentId ∧
    now < c.expiresAt ∧ (poll.materialId, poll.revision, m.sourceSha256) ∈ c.sourceHashes

/-- The dispatch of a cloud leg was polled before. -/
def CloudLeg.sent : CloudLeg → Bool
  | .parked sent | .polling sent => sent
  | .rechecking | .connecting => false

/-- The use of a consent by an attempt, and whether its dispatch was polled before. -/
structure CloudUse where
  consentId : Id
  materialId : Id
  revision : Nat
  sent : Bool
deriving DecidableEq

/-- The use of a consent by a worker in the cloud leg. -/
def Worker.cloudUse : Worker → Option CloudUse
  | .working job (.cloud _ consent _ leg) =>
      some ⟨consent.id, job.material.id, job.material.revision, leg.sent⟩
  | _ => none

/-- The poll which a signal is. -/
def Signal.poll : Signal → Option CloudPoll
  | .cloudPoll poll => some poll
  | .cancelTask _ | .cancelAll | .modelRequest .. => none

/-- A signal which is no poll. -/
def Signal.IsQuiet (what : Signal) : Prop := what.poll = none

/-- What `recheck_cloud_locked` has found when it succeeds. -/
theorem recheckCloud_eq_ok {services : Services} {now : Nat} {store : Store} {m : Material}
    {c : CloudConsent} {p : ProviderConfig}
    (checked : recheckCloud services now store m c p = .ok ()) :
    ∃ fresh actual, store.materials.get m.id = some fresh ∧ fresh.revision = m.revision ∧
      fresh.status = .running ∧ fresh.sourceSha256 = m.sourceSha256 ∧
      store.consents.get m.taskId = some actual ∧ actual.id = c.id ∧ now < actual.expiresAt ∧
      (m.id, m.revision, m.sourceSha256) ∈ actual.sourceHashes := by
  simp only [recheckCloud, bind_eq_ok, Store.material_eq_ok, Store.require_eq_ok,
    refuseIf_eq_ok, presentOr_eq_ok, not_or, Decidable.not_not, Bool.not_eq_false] at checked
  obtain ⟨fresh, found, -, -, -, ⟨revision, status, source, -⟩, actual, consentFound, config, -,
    consent, matched, -⟩ := checked
  simp only [cloudMatches, Bool.and_eq_true, decide_eq_true_eq, beq_iff_eq, List.any_eq_true]
    at matched
  obtain ⟨⟨⟨unexpired, -⟩, -⟩, ⟨id, recordedRevision, sha⟩, recorded, ⟨rfl, rfl⟩, rfl⟩ := matched
  exact ⟨fresh, actual, found, revision, status, source, consentFound, consent, unexpired, recorded⟩

section Steps

variable {services : Services} {now : Nat} {resultId : Id} {cancelled : Bool} {job : Job}

/-- Every step outside of the cloud leg polls nothing and does not lead into the leg. -/
theorem Job.step_quiet {phase : Phase} {answer : Answer} {op : Op Worker}
    (outside : ∀ analysis consent config leg, phase ≠ .cloud analysis consent config leg)
    (unclaimed : ∀ analysis, phase ≠ .claimingCloud analysis)
    (enabled : job.step services now resultId cancelled phase answer = some op) :
    op.Always Signal.IsQuiet fun next => next.cloudUse = none := by
  unfold Job.step at enabled
  split at enabled
  case h_24 => cases enabled
  case h_21 => exact absurd rfl (outside _ _ _ _)
  case h_20 => exact absurd rfl (unclaimed _)
  all_goals obtain rfl := Option.some.inj enabled
  case h_14 => exact finishAttempt_always rfl rfl
  case h_23 =>
    unfold finishLocal
    split <;> exact finishAttempt_always rfl rfl
  case h_13 =>
    rw [Program.always_pure]
    split <;> rfl
  case h_2 => split <;> trivial
  case h_19 =>
    simp only [saveAnalysis, Program.always_bind, Program.always_current, Program.always_lift]
    intro _ _ _
    split
    · simp only [Program.always_bind, Program.always_commit, Program.always_pure]
      split <;> rfl
    · rfl
  case h_9 =>
    simp only [storeText, Program.always_bind, Program.always_current, Program.always_lift]
    intro _ _ _
    split <;> rfl
  case h_4 =>
    simp only [openSource, Program.always_bind, Program.always_current, Program.always_lift, Program.always_refuse,
      Program.always_pure]
    intro _ _ _ _
    split <;> rfl
  case h_22 =>
    simp only [acceptFindings, Program.always_bind, Program.always_current]
    intro _
    split <;> rfl
  all_goals simp [saveAiStage, Worker.cloudUse, Signal.IsQuiet, Signal.poll]

/-- What one step of a worker does to the uses of consents. -/
inductive CloudEffect (now : Nat) (store : Store) (worker : Worker) :
    List Signal → Store → Worker → Prop where
  | quiet {signals : List Signal} {after : Store} {next : Worker}
      (noPolls : ∀ what ∈ signals, what.IsQuiet) (unused : next.cloudUse = none) :
      CloudEffect now store worker signals after next
  | claimed (use : CloudUse) {taskId : Id} {consent : CloudConsent} {next : Worker}
      (found : store.consents.get taskId = some consent)
      (unused : use.materialId ∉ consent.usedMaterials) (same : use.consentId = consent.id)
      (unsent : use.sent = false) (uses : next.cloudUse = some use) :
      CloudEffect now store worker []
        (store.putMany [.consent taskId (claimedConsent consent use.materialId)]) next
  | kept {use : CloudUse} {next : Worker} (uses : worker.cloudUse = some use)
      (keeps : ∀ after, next.cloudUse = some after →
        ∃ sent, after = { use with sent := sent } ∧ (sent = false → use.sent = false)) :
      CloudEffect now store worker [] store next
  | polled (use : CloudUse) {next : Worker} (uses : worker.cloudUse = some use)
      (authorized : PollAuthorized now store
        ⟨use.consentId, use.materialId, use.revision, !use.sent⟩)
      (keeps : ∀ after, next.cloudUse = some after → after = { use with sent := true }) :
      CloudEffect now store worker
        [.cloudPoll ⟨use.consentId, use.materialId, use.revision, !use.sent⟩] store next

/-- A step of the cloud leg polls at most once, and only while the consent is found. -/
theorem cloudStep_effect {analysis : Analysis} {consent : CloudConsent} {config : ProviderConfig}
    {leg : CloudLeg} {answer : Answer} {op : Op Worker} {store : Store} {allowed : Option Nat}
    (enabled : cloudStep services now cancelled job analysis consent config leg answer = some op) :
    let worker := Worker.working job (.cloud analysis consent config leg)
    CloudEffect now store worker (op.execute store allowed).signals
      (op.execute store allowed).state (worker.next (op.execute store allowed).result) := by
  have dropped : ∀ code, (withoutCloud job analysis code).cloudUse = none := fun _ => rfl
  intro worker
  unfold cloudStep at enabled
  split at enabled
  case h_5 => cases enabled
  all_goals obtain rfl := Option.some.inj enabled
  case h_1 sent =>
    refine .kept rfl fun after uses => ?_
    change (if cancelled = true then withoutCloud job analysis "cloud_authorization_revoked"
      else if sent = true then Worker.working job (.cloud analysis consent config (.polling true))
      else .working job (.cloud analysis consent config .rechecking)).cloudUse = some after at uses
    split at uses
    · cases uses
    · split at uses
      · exact ⟨true, (Option.some.inj uses).symm, by simp⟩
      · exact ⟨false, (Option.some.inj uses).symm, by simp_all [CloudLeg.sent]⟩
  case h_2 =>
    rw [Op.execute_current]
    cases recheckCloud services now store job.material consent config with
    | error error => exact .kept rfl fun after uses => by cases uses
    | ok _ => exact .kept rfl fun after uses => ⟨false, (Option.some.inj uses).symm, id⟩
  case h_3 apiKey =>
    rw [Op.execute_current]
    cases providerDispatchSnapshot services store config apiKey with
    | error error => exact .kept rfl fun after uses => by cases uses
    | ok _ => exact .kept rfl fun after uses => ⟨false, (Option.some.inj uses).symm, id⟩
  case h_4 sent reply =>
    rw [Op.execute_current]
    cases checked : recheckCloud services now store job.material consent config with
    | error error => exact .kept rfl fun after uses => by cases uses
    | ok _ =>
      obtain ⟨fresh, actual, found, revision, status, source, consentFound, sameId, unexpired,
        recorded⟩ := recheckCloud_eq_ok checked
      refine .polled ⟨consent.id, job.material.id, job.material.revision, sent⟩ rfl ?_ ?_
      · exact ⟨fresh, job.material.taskId, actual, found, revision, status, consentFound, sameId,
          unexpired, source ▸ recorded⟩
      · intro after uses
        change (pollResult job analysis consent config reply).cloudUse = some after at uses
        unfold pollResult at uses
        split at uses
        · exact (Option.some.inj uses).symm
        · cases uses
        · split at uses <;> cases uses

/-- A claim of a consent stores the use before the attempt goes into the cloud leg. -/
theorem claimCloud_effect {analysis : Analysis} {op : Op Worker} {store : Store}
    {allowed : Option Nat}
    (enabled : job.step services now resultId cancelled (.claimingCloud analysis) .proceed =
      some op) :
    let worker := Worker.working job (.claimingCloud analysis)
    CloudEffect now store worker (op.execute store allowed).signals
      (op.execute store allowed).state (worker.next (op.execute store allowed).result) := by
  intro worker
  obtain rfl := Option.some.inj enabled
  have quiet : ∀ {after next}, next.cloudUse = none → CloudEffect now store worker [] after next :=
    fun unused => .quiet (by simp) unused
  simp only [claimCloud, Op.execute, bind, Program.bind, Program.current, Program.run]
  cases found : store.consents.get job.material.taskId with
  | none => exact quiet rfl
  | some consent =>
    cases configFound : Store.require (store.providers.get consent.providerId) with
    | error error => simpa [Program.lift, Program.bind, Program.run, configFound] using quiet rfl
    | ok config =>
      simp only [configFound, Program.lift, Program.bind]
      split
      · exact quiet rfl
      · rename_i usable
        cases stored : store.material job.material.id with
        | error error => exact quiet rfl
        | ok fresh =>
          by_cases changed : attemptIsCurrent fresh job.material = false
          · simp only [Program.lift, Program.bind, Program.refuse, refuseIf, if_pos changed]
            exact quiet rfl
          · simp only [Program.lift, Program.bind, Program.refuse, refuseIf, if_neg changed]
            cases allowed with
            | none =>
              exact .claimed ⟨consent.id, job.material.id, job.material.revision, false⟩
                found (fun used => usable (.inr used)) rfl rfl rfl
            | some count =>
              cases count with
              | zero => exact quiet rfl
              | succ _ =>
                exact .claimed ⟨consent.id, job.material.id, job.material.revision, false⟩
                  found (fun used => usable (.inr used)) rfl rfl rfl

/-- Every step of a worker has one of these effects. -/
theorem Worker.step_effect {worker : Worker} {answer : Answer} {op : Op Worker} {store : Store}
    {allowed : Option Nat}
    (enabled : worker.step services now resultId cancelled answer = some op) :
    CloudEffect now store worker (op.execute store allowed).signals
      (op.execute store allowed).state (worker.next (op.execute store allowed).result) := by
  have failed : ∀ error, (worker.failed error).cloudUse = none := by
    intro error
    cases worker with
    | idle => rfl
    | settling => rfl
    | working job phase => cases phase <;> rfl
  have quiet : op.Always Signal.IsQuiet (fun next => next.cloudUse = none) →
      CloudEffect now store worker (op.execute store allowed).signals
        (op.execute store allowed).state (worker.next (op.execute store allowed).result) := by
    intro always
    refine .quiet (fun what sent => always.run_signals sent) ?_
    cases ended : (op.execute store allowed).result with
    | error error => exact failed error
    | ok next => exact always.run_post ended
  unfold Worker.step at enabled
  split at enabled
  · cases enabled
  · obtain rfl := Option.some.inj enabled
    exact quiet rfl
  · rename_i job phase _
    cases phase with
    | cloud analysis consent config leg => exact cloudStep_effect enabled
    | claimingCloud analysis =>
      cases answer with
      | proceed => exact claimCloud_effect enabled
      | _ => cases enabled
    | _ => exact quiet (Job.step_quiet (by simp) (by simp) enabled)
  · obtain rfl := Option.some.inj enabled
    refine quiet ?_
    simp only [failMaterial, Program.always_bind, Program.always_current, Program.always_lift]
    intro _ _ _
    split <;> rfl
  · cases enabled

end Steps

theorem reanalyzeGroup_quiet (store : Store) (groupId : Id) (listed : List (Id × Material)) :
    (reanalyzeGroup store groupId listed).Always Signal.IsQuiet fun _ => True := by
  induction listed with
  | nil => trivial
  | cons entry rest inductionHypothesis =>
    unfold reanalyzeGroup
    split
    · simp only [Program.always_bind, Program.always_send, Program.always_lift,
        Program.always_pure]
      refine ⟨rfl, fun _ _ => ?_⟩
      exact inductionHypothesis.imp (fun _ quiet => quiet) fun _ _ => trivial
    · exact inductionHypothesis

theorem updateDictionaryLocked_quiet (services : Services) (groupId : Id)
    (entries : List DictionaryEntry) :
    (updateDictionaryLocked services groupId entries).Always Signal.IsQuiet fun _ => True := by
  simp only [updateDictionaryLocked, Program.always_bind, Program.always_lift,
    Program.always_refuse, Program.always_current, Program.always_commit]
  intro _ _ _ _ _ _ _ _
  exact (reanalyzeGroup_quiet _ _ _).imp (fun _ quiet => quiet) fun _ _ => trivial

theorem reviewDictionary_quiet (services : Services) (materialId : Id) (m : Material) (g : Group)
    (aiFindings : Option (List AiFinding)) (request : ReviewRequest) :
    (reviewDictionary services materialId m g aiFindings request).Always Signal.IsQuiet
      fun _ => True := by
  unfold reviewDictionary
  split
  · trivial
  · simp only [Program.always_bind, Program.always_lift, Program.always_current,
      Program.always_pure]
    intro _ _
    exact (updateDictionaryLocked_quiet _ _ _).imp (fun _ quiet => quiet) (by simp)

/-- No request polls the transport. -/
theorem Request.quiet (request : Request) (services : Services) (now : Nat) :
    (request.op services now).Always Signal.IsQuiet fun _ => True := by
  cases request with
  | setDictionary => exact updateDictionaryLocked_quiet _ _ _
  | review resultId materialId request =>
    simp only [Request.op, Workspace.review, Program.always_bind, Program.always_lift,
      Program.always_refuse, Program.always_current]
    intro _ _ _ _ _ found _ _ _
    refine (reviewDictionary_quiet services _ _ _ _ _).imp (fun _ quiet => quiet) ?_
    intro reviewed _ analysis _
    refine finishLocked_always ?_
    cases found.2 <;> trivial
  | submit =>
    simp only [Request.op, Workspace.submit, Program.always_bind, Program.always_lift,
      Program.always_refuse, Program.always_current]
    intros
    split <;> simp
  | _ =>
    simp [Request.op, Workspace.createGroup, Workspace.createClient, Workspace.revokeClient,
      Workspace.replaceMaterial, Workspace.cancelTask, Workspace.retryTask, Workspace.consent,
      Workspace.revokeConsent, Workspace.revokeMaterial, Workspace.saveProvider, Signal.IsQuiet,
      Signal.poll]

/-- The polls of a world after a program of its process. -/
theorem World.after_polls {α : Type} (world : World) (process : Process) (fresh : List Id)
    (outcome : Program.Outcome Store Signal Error α) :
    (world.after process fresh outcome).polls =
      (outcome.signals.filterMap Signal.poll).reverse ++ world.polls := by
  have logged : ∀ (signals : List Signal) (world : World), (signals.foldl World.log world).polls =
      (signals.filterMap Signal.poll).reverse ++ world.polls := by
    intro signals
    induction signals with
    | nil => intro world; rfl
    | cons what rest inductionHypothesis =>
      intro world
      rw [List.foldl_cons, inductionHypothesis]
      cases what <;> simp [World.log, Signal.poll, List.filterMap_cons]
  exact logged outcome.signals world

/-- The use of a consent by a worker of a world. -/
def World.use (world : World) (index : Nat) : Option CloudUse :=
  world.live.bind fun process => (process.workers index).cloudUse

/-- What one event does to the uses of consents. -/
inductive UseEffect (world next : World) : Event → Prop where
  | quiet {event : Event} (polls : next.polls = world.polls)
      (keeps : ∀ index after, next.use index = some after →
        ∃ use sent, world.use index = some use ∧ after = { use with sent := sent } ∧
          (sent = false → use.sent = false)) : UseEffect world next event
  | claimed {event : Event} {index : Nat} {taskId : Id} {consent : CloudConsent} {use : CloudUse}
      (polls : next.polls = world.polls)
      (found : world.store.consents.get taskId = some consent)
      (unused : use.materialId ∉ consent.usedMaterials) (same : use.consentId = consent.id)
      (stored : next.store =
        world.store.putMany [.consent taskId (claimedConsent consent use.materialId)])
      (uses : ∀ other after, next.use other = some after →
        (other = index ∧ after = use) ∨ (other ≠ index ∧ world.use other = some after)) :
      UseEffect world next event
  | polled {index now : Nat} {resultId : Id} {answer : Answer} {allowed : Option Nat}
      {use : CloudUse} (used : world.use index = some use)
      (polls : next.polls =
        ⟨use.consentId, use.materialId, use.revision, !use.sent⟩ :: world.polls)
      (authorized : PollAuthorized now world.store
        ⟨use.consentId, use.materialId, use.revision, !use.sent⟩)
      (uses : ∀ other after, next.use other = some after →
        (other = index ∧ after = { use with sent := true }) ∨
          (other ≠ index ∧ world.use other = some after)) :
      UseEffect world next (.work index now resultId answer allowed)

/-- The effect of a step of one worker in its world. -/
theorem CloudEffect.useEffect {world next : World} {worked now : Nat} {resultId : Id}
    {answer : Answer} {allowed : Option Nat} {worker nextWorker : Worker} {signals : List Signal}
    {after : Store} (effect : CloudEffect now world.store worker signals after nextWorker)
    (polls : next.polls = (signals.filterMap Signal.poll).reverse ++ world.polls)
    (stored : next.store = after) (before : world.use worked = worker.cloudUse)
    (uses : ∀ other, next.use other =
      if other = worked then nextWorker.cloudUse else world.use other) :
    UseEffect world next (.work worked now resultId answer allowed) := by
  have others : ∀ {use : CloudUse}, (∀ after, nextWorker.cloudUse = some after → after = use) →
      ∀ other after, next.use other = some after →
        (other = worked ∧ after = use) ∨ (other ≠ worked ∧ world.use other = some after) := by
    intro use keeps other after used
    rw [uses] at used
    split at used
    · exact .inl ⟨‹_›, keeps after used⟩
    · exact .inr ⟨‹_›, used⟩
  cases effect with
  | quiet noPolls unused =>
    refine .quiet ?_ fun other after used => ?_
    · rw [polls, List.filterMap_eq_nil_iff.mpr noPolls]
      rfl
    · rw [uses, unused] at used
      split at used
      · cases used
      · exact ⟨after, after.sent, used, rfl, id⟩
  | claimed use found unused same unsent taken =>
    refine .claimed polls found unused same stored (others fun after used => ?_)
    exact Option.some.inj (used.symm.trans taken)
  | @kept use _ taken keeps =>
    refine .quiet polls fun other after used => ?_
    rw [uses] at used
    split at used
    · subst other
      obtain ⟨sent, rfl, unsent⟩ := keeps after used
      exact ⟨use, sent, before.trans taken, rfl, unsent⟩
    · exact ⟨after, after.sent, used, rfl, id⟩
  | polled use taken authorized keeps =>
    exact .polled (before.trans taken) polls authorized (others keeps)

/-- Every event has one of these effects. -/
theorem use_effect {services : Services} {pool : Nat} {world next : World} {event : Event}
    (sound : Sound world) (taken : step services pool world event = some next) :
    UseEffect world next event := by
  have noPolls : ∀ {signals : List Signal}, (∀ what ∈ signals, what.IsQuiet) →
      signals.filterMap Signal.poll = [] := fun quiet => List.filterMap_eq_nil_iff.mpr quiet
  have same : ∀ {index after}, world.use index = some after →
      ∃ use sent, world.use index = some use ∧ after = { use with sent := sent } ∧
        (sent = false → use.sent = false) := fun used => ⟨_, _, used, rfl, id⟩
  cases (stepped_of_step taken).2 with
  | @request process now request allowed live =>
    have quiet : ∀ what ∈ ((request.op services now).execute world.store allowed).signals,
        what.IsQuiet := fun what sent => (request.quiet services now).run_signals sent
    refine .quiet ?_ fun index after used => same ?_
    · rw [World.after_polls, noPolls quiet]
      rfl
    · rw [← used]
      simp [World.use, World.after, live]
  | @claim process claimant materialId allowed outcome live inPool idle executed =>
    subst executed
    obtain ⟨noSignals, outcome⟩ := claimNext_outcome sound.published materialId allowed
    refine .quiet ?_ fun index after used => same ?_
    · rw [World.after_polls, noSignals]
      rfl
    · rw [← used]
      simp only [World.use, World.after, Option.bind_some, live, Process.signals_workers]
      unfold Process.afterClaim
      split
      · simp only [Process.claimed, Process.setWorker_workers]
        split
        · subst index
          rw [idle]
          rfl
        · rfl
      · rfl
      · rfl
  | crash live => exact .quiet rfl fun index after used => by cases used
  | @start now running allowed outcome stopped listed executed =>
    refine .quiet rfl fun index after used => ?_
    simp only [World.use] at used
    split at used <;> cases used
  | @work process worked now resultId answer allowed op outcome live enabled executed =>
    subst executed
    refine (Worker.step_effect enabled).useEffect (World.after_polls _ _ _ _) rfl ?_ ?_
    · simp [World.use, live]
    · intro other
      simp only [World.use, World.after, Option.bind_some, live, Process.signals_workers,
        Process.setWorker_workers]
      split <;> rfl

/-! ## Stored consents -/

/-- The consents of a store which developed from another one: no identifier is stored under
two tasks, and an issued consent only gains uses. -/
structure ConsentsKept (issued : List Id) (before store : Store) : Prop where
  unique : ∀ {taskId other c d}, store.consents.get taskId = some c →
    store.consents.get other = some d → c.id = d.id → taskId = other
  older : ∀ {taskId c}, store.consents.get taskId = some c → c.id ∈ issued →
    ∃ old, before.consents.get taskId = some old ∧ old.id = c.id ∧
      old.usedMaterials ⊆ c.usedMaterials

section Consents

variable {issued fresh : List Id} {before store : Store} {rows : List Row}

/-- Rows without a consent. -/
theorem ConsentsKept.putMany (kept : ConsentsKept issued before store)
    (absent : ∀ {taskId c}, .consent taskId c ∉ rows) :
    ConsentsKept issued before (store.putMany rows) := by
  have stays : ∀ {taskId c}, (store.putMany rows).consents.get taskId = some c →
      store.consents.get taskId = some c :=
    fun found => (consents_putMany_cases found).resolve_left absent
  exact ⟨fun found other => kept.unique (stays found) (stays other),
    fun found => kept.older (stays found)⟩

theorem ConsentsKept.lawful (kept : ConsentsKept issued before store)
    (lawful : Lawful fresh store rows) (areFresh : ∀ id ∈ fresh, id ∉ issued) :
    ConsentsKept issued before (store.putMany rows) := by
  cases lawful with
  | rewrite rewrites => exact kept.putMany rewrites.consents
  | publish publishes =>
    refine kept.putMany fun member => ?_
    rcases revokedResult_eq_ok.mp publishes.revokes with ⟨-, rfl⟩ | ⟨_, _, -, -, rfl⟩ <;>
      simp at member
  | @consent rows taskId new rewrites isFresh unused unstored =>
    have cases : ∀ {other c}, (store.putMany (rows ++ [.consent taskId new])).consents.get other =
        some c → (other = taskId ∧ c = new) ∨ store.consents.get other = some c := by
      intro other c found
      rcases consents_putMany_cases found with member | stored
      · rcases List.mem_append.mp member with inRows | isNew
        · exact absurd inRows rewrites.consents
        · exact .inl (by simpa using isNew)
      · exact .inr stored
    constructor
    · intro first second c d found other same
      rcases cases found with ⟨rfl, rfl⟩ | stored <;> rcases cases other with ⟨rfl, rfl⟩ | stored'
      · rfl
      · exact absurd same.symm (unstored stored')
      · exact absurd same (unstored stored)
      · exact kept.unique stored stored' same
    · intro other c found isIssued
      rcases cases found with ⟨rfl, rfl⟩ | stored
      · exact absurd isIssued (areFresh _ isFresh)
      · exact kept.older stored isIssued

theorem ConsentsKept.attempt {id : Id} {revision : Nat} (kept : ConsentsKept issued before store)
    (attempt : AttemptRows fresh id revision store rows) :
    ConsentsKept issued before (store.putMany rows) := by
  cases attempt with
  | stage => exact kept.putMany (by simp)
  | move => exact kept.putMany (by simp)
  | publish => exact kept.putMany (by simp)
  | @consent taskId claimed stored current found unused =>
    have cases : ∀ {other c}, (store.putMany [.consent taskId (claimedConsent claimed id)]
        ).consents.get other = some c → ∃ old, store.consents.get other = some old ∧
          old.id = c.id ∧ old.usedMaterials ⊆ c.usedMaterials := by
      intro other c written
      rcases consents_putMany_cases written with member | stored
      · obtain ⟨rfl, rfl⟩ : other = taskId ∧ c = claimedConsent claimed id := by
          simpa using member
        exact ⟨claimed, found, rfl, List.subset_append_left _ _⟩
      · exact ⟨c, stored, rfl, List.Subset.refl _⟩
    constructor
    · intro first second c d firstFound secondFound same
      obtain ⟨old, oldFound, oldId, -⟩ := cases firstFound
      obtain ⟨other, otherFound, otherId, -⟩ := cases secondFound
      exact kept.unique oldFound otherFound (by rw [oldId, otherId, same])
    · intro other c found isIssued
      obtain ⟨old, oldFound, oldId, grows⟩ := cases found
      obtain ⟨first, firstFound, firstId, firstGrows⟩ := kept.older oldFound (oldId ▸ isIssued)
      exact ⟨first, firstFound, firstId.trans oldId, List.Subset.trans firstGrows grows⟩

theorem ConsentsKept.claim (kept : ConsentsKept issued before store)
    (claim : ClaimRows store rows) : ConsentsKept issued before (store.putMany rows) := by
  cases claim with
  | claim => exact kept.putMany (by simp)

theorem ConsentsKept.recovery (kept : ConsentsKept issued before store)
    (recovers : RecoveryRows store rows) : ConsentsKept issued before (store.putMany rows) := by
  cases recovers <;> exact kept.putMany (by simp)

end Consents

/-- No consent identifier is stored under two tasks. -/
def UniqueConsents (store : Store) : Prop :=
  ∀ {taskId other c d}, store.consents.get taskId = some c →
    store.consents.get other = some d → c.id = d.id → taskId = other

/-- What every event keeps of the consents. -/
theorem Sound.consents_kept {services : Services} {pool : Nat} {world next : World} {event : Event}
    (sound : Sound world) (unique : UniqueConsents world.store)
    (taken : Workspace.step services pool world event = some next) :
    ConsentsKept world.issued world.store next.store := by
  have areFresh := (stepped_of_step taken).1.2
  refine sound.store_invariant taken (ConsentsKept world.issued world.store) ?_ ?_ ?_ ?_
    ⟨unique, fun found _ => ⟨_, found, rfl, List.Subset.refl _⟩⟩
  · exact fun _ _ _ kept lawful => kept.lawful lawful areFresh
  · exact fun _ kept attempt => kept.attempt attempt
  · exact ConsentsKept.claim
  · exact ConsentsKept.recovery

end LawyerAssistance.Workspace

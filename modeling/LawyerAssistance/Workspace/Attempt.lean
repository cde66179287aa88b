import LawyerAssistance.Workspace.Lawful
import LawyerAssistance.Workspace.Worker

/-!
# What an attempt commits

`AttemptRows` says what one transaction of a worker can be: the stage record of its
attempt, the use of a consent, or a new state of its material; the last two only while
the stored material is still the attempt's revision and running. `Worker.step_holds`
proves it for every step of every phase, with what the worker carries on.
-/

namespace LawyerAssistance.Workspace

open PrivacyText

/-- The stored material of an attempt which nobody has superseded. -/
structure Current (store : Store) (id : Id) (revision : Nat) (stored : Material) : Prop where
  found : store.materials.get id = some stored
  revision : stored.revision = revision
  running : stored.status = .running

/-- The transactions of an attempt at one revision of one material. -/
inductive AttemptRows (fresh : List Id) (id : Id) (revision : Nat) (store : Store) :
    List Row → Prop where
  | stage {record : AiStageRecord} (subject : record.materialId = id)
      (sameRevision : record.revision = revision) :
      AttemptRows fresh id revision store [.aiStage id record]
  | consent {taskId : Id} {consent : CloudConsent} {stored : Material}
      (current : Current store id revision stored)
      (found : store.consents.get taskId = some consent) (unused : id ∉ consent.usedMaterials) :
      AttemptRows fresh id revision store [.consent taskId (claimedConsent consent id)]
  | move {stored m : Material} (current : Current store id revision stored) (keyed : m.id = id)
      (sameRevision : m.revision = revision) (nameless : m.resultId = none)
      (unready : m.status ≠ .ready) : AttemptRows fresh id revision store [.material m.id m]
  | publish {stored m : Material} {r : ReadyResult} (current : Current store id revision stored)
      (keyed : m.id = id) (sameRevision : m.revision = revision) (isFresh : r.id ∈ fresh)
      (publishes : Publication store stored m r []) :
      AttemptRows fresh id revision store ([.result r.id r] ++ [.material m.id m])

/-- What a worker carries from one step of an attempt to the next: the claimed revision of
the material, without a result and running. -/
inductive Carries (id : Id) (revision : Nat) : Worker → Prop where
  | idle : Carries id revision .idle
  | working {job : Job} {phase : Phase} (keyed : job.material.id = id)
      (sameRevision : job.material.revision = revision) (nameless : job.material.resultId = none)
      (running : job.material.status = .running) : Carries id revision (.working job phase)
  | settling {code : String} : Carries id revision (.settling id revision code)

/-- The material and the revision which a worker processes or settles. -/
def Worker.subject : Worker → Option (Id × Nat)
  | .idle => none
  | .working job _ => some (job.material.id, job.material.revision)
  | .settling materialId revision _ => some (materialId, revision)

/-- A worker which carries an attempt is idle or at work on it. -/
theorem Carries.subject {id : Id} {revision : Nat} {worker : Worker}
    (carries : Carries id revision worker) (working : worker ≠ .idle) :
    worker.subject = some (id, revision) := by
  cases carries with
  | idle => exact absurd rfl working
  | working keyed sameRevision => simp [Worker.subject, keyed, sameRevision]
  | settling => rfl

/-- A transaction of an attempt keeps the relation between materials and results. -/
theorem AttemptRows.published {fresh : List Id} {id : Id} {revision : Nat} {store : Store}
    {rows : List Row} (attempt : AttemptRows fresh id revision store rows)
    (holds : Published store) : Published (store.putMany rows) := by
  cases attempt with
  | stage subject sameRevision =>
      exact Withdrawal.published ⟨by simp, by simp, by simp, by simp⟩ holds
  | consent current found unused =>
      exact Withdrawal.published ⟨by simp, by simp, by simp, by simp⟩ holds
  | @move stored m current keyed sameRevision nameless unready =>
      subst keyed
      have unnamed := holds.nameless current.found (by simp [current.running])
      refine Withdrawal.published ?_ holds
      exact withdrawal_of_revokedResult holds current.found
        (by rw [unnamed]; rfl) nameless unready
  | publish current keyed sameRevision isFresh publishes => exact publishes.published holds

section Steps

variable {services : Services} {now : Nat} {resultId id : Id} {revision : Nat} {store : Store}
  {job : Job}

theorem Current.of_attemptIsCurrent {fresh m : Material} (keyed : m.id = id)
    (sameRevision : m.revision = revision) (found : store.materials.get m.id = some fresh)
    (isCurrent : attemptIsCurrent fresh m = true) : Current store id revision fresh := by
  simp only [attemptIsCurrent, Bool.and_eq_true, beq_iff_eq] at isCurrent
  exact ⟨keyed ▸ found, isCurrent.1.trans sameRevision, isCurrent.2⟩

theorem Carries.phase {phase next : Phase} (carries : Carries id revision (.working job phase)) :
    Carries id revision (.working job next) := by
  cases carries with
  | working keyed sameRevision nameless running =>
      exact .working keyed sameRevision nameless running

theorem Carries.withoutCloud {phase : Phase} {analysis : Analysis} {code : String}
    (carries : Carries id revision (.working job phase)) :
    Carries id revision (withoutCloud job analysis code) := by
  cases carries with
  | working keyed sameRevision nameless running =>
      exact .working keyed sameRevision nameless running

/-- After an error the worker settles the same attempt. -/
theorem Carries.failed {worker : Worker} (carries : Carries id revision worker) (error : Error) :
    Carries id revision (worker.failed error) := by
  cases carries with
  | idle => exact .idle
  | settling => exact .settling
  | @working job phase keyed sameRevision nameless running =>
      subst keyed sameRevision
      cases phase <;> exact .settling

theorem finishAttempt_holds (holds : Published store) (unused : store.results.get resultId = none)
    {m : Material} {g : Group} (keyed : m.id = id) (sameRevision : m.revision = revision)
    (nameless : m.resultId = none) (analysis : Analysis) (waiting : Bool) {next : Worker}
    (carriesNext : Carries id revision next) :
    (finishAttempt services now resultId m g analysis waiting next).Holds Store.putMany
      (AttemptRows [resultId] id revision) (fun next _ => Carries id revision next) store := by
  simp only [finishAttempt, Program.holds_bind, Program.holds_current, Program.holds_lift,
    Store.material_eq_ok, Store.require_eq_ok]
  intro fresh found currentGroup groupFound
  split
  case isFalse => exact .idle
  case isTrue isCurrent =>
    have current := Current.of_attemptIsCurrent keyed sameRevision found isCurrent
    have unnamed := holds.nameless current.found (by simp [current.running])
    split
    case isTrue => 
      have freshKeyed := holds.materialKeyed current.found
      exact ⟨.move (m := { fresh with status := .queued }) current freshKeyed current.revision
        unnamed (by simp), .idle⟩
    case isFalse sameDictionary =>
      have finishedKeyed : (finishedMaterial resultId m g analysis waiting).id = id := by
        simpa using keyed
      have finishedRevision :
          (finishedMaterial resultId m g analysis waiting).revision = revision := by
        simpa using sameRevision
      have revokesNothing : ∀ revoked, revokedResult store m.resultId = .ok revoked →
          revoked = [] := by
        intro revoked revokes
        rw [nameless] at revokes
        exact (Except.ok.inj revokes).symm
      rw [Program.holds_bind]
      refine finishLocked_holds ?_ ?_
      · intro revoked review revokes
        obtain rfl := revokesNothing revoked revokes
        obtain ⟨noResult, status⟩ := finishedMaterial_review (m := m) review
        exact ⟨.move current finishedKeyed finishedRevision noResult
          (by rw [status]; split <;> simp), carriesNext⟩
      · intro revoked ready _ _ revokes
        obtain rfl := revokesNothing revoked revokes
        have publishes : Publication store fresh
            (finishedMaterial resultId m g analysis waiting)
            (publishedResult services now resultId m g analysis) [] :=
          finishLocked_publication ready found (by rw [unnamed]; rfl) unused
            ⟨currentGroup, groupFound, (Decidable.not_not.mp sameDictionary).symm⟩
        exact ⟨.publish current finishedKeyed finishedRevision (by simp [publishedResult]) publishes,
          carriesNext⟩

variable {phase : Phase} (carries : Carries id revision (.working job phase))

section
include carries

theorem saveAiStage_holds {stage : AiStage} {selection : AiModelSelection}
    {textSha256 errorCode : Option String} {next : Worker} (carriesNext : Carries id revision next) :
    (saveAiStage now job.material stage selection textSha256 errorCode).Holds Store.putMany
      (AttemptRows [resultId] id revision) (fun _ _ => Carries id revision next) store := by
  cases carries with
  | working keyed sameRevision nameless running =>
      subst keyed
      exact ⟨.stage rfl sameRevision, carriesNext⟩

theorem storeText_holds (holds : Published store) (selection : AiModelSelection)
    (extracted : Text) :
    (storeText services job selection extracted).Holds Store.putMany
      (AttemptRows [resultId] id revision) (fun next _ => Carries id revision next) store := by
  cases carries with
  | working keyed sameRevision nameless running =>
      simp only [storeText, Program.holds_bind, Program.holds_current, Program.holds_lift,
        Store.material_eq_ok]
      intro fresh found
      split
      case isFalse => exact .idle
      case isTrue isCurrent =>
        have current := Current.of_attemptIsCurrent keyed sameRevision found isCurrent
        have freshKeyed := holds.materialKeyed current.found
        have unnamed := holds.nameless current.found (by simp [current.running])
        exact ⟨.move (m := { fresh with originalText := extracted }) current freshKeyed
            current.revision unnamed (by simp [current.running]),
          .working freshKeyed current.revision unnamed current.running⟩

theorem saveAnalysis_holds (analysis : Analysis) :
    (saveAnalysis job analysis).Holds Store.putMany
      (AttemptRows [resultId] id revision) (fun next _ => Carries id revision next) store := by
  cases carries with
  | working keyed sameRevision nameless running =>
      simp only [saveAnalysis, Program.holds_bind, Program.holds_current, Program.holds_lift,
        Store.material_eq_ok]
      intro fresh found
      split
      case isFalse => exact .idle
      case isTrue isCurrent =>
        have current := Current.of_attemptIsCurrent keyed sameRevision found isCurrent
        exact ⟨.move (m := { job.material with analysis := some analysis }) current keyed
            sameRevision nameless (by simp [running]),
          .working keyed sameRevision nameless running⟩

theorem claimCloud_holds (analysis : Analysis) :
    (claimCloud services now job.material).Holds Store.putMany
      (AttemptRows [resultId] id revision) (fun claimed _ => Carries id revision
        (match claimed with
          | some (consent, config) => .working job (.cloud analysis consent config (.parked false))
          | none => .working job (.finishing analysis true))) store := by
  have continues : ∀ phase, Carries id revision (.working job phase) := fun _ => carries.phase
  cases carries with
  | working keyed sameRevision nameless running =>
      simp only [claimCloud, Program.holds_bind, Program.holds_current]
      split
      case h_1 => exact continues _
      case h_2 consent consentFound =>
        simp only [Program.holds_bind, Program.holds_lift]
        intro config _
        split
        case isTrue => exact continues _
        case isFalse usable =>
          simp only [not_or] at usable
          simp only [Program.holds_bind, Program.holds_lift, Program.holds_refuse,
            Program.holds_commit, Program.holds_pure, Store.material_eq_ok]
          intro fresh found isCurrent
          have current := Current.of_attemptIsCurrent keyed sameRevision found (by simpa using isCurrent)
          subst keyed
          exact ⟨.consent current consentFound usable.2, continues _⟩

theorem pollResult_carries (analysis : Analysis) (consent : CloudConsent) (config : ProviderConfig)
    (reply : Option (Except Error (List CloudFinding))) :
    Carries id revision (pollResult job analysis consent config reply) := by
  unfold pollResult
  split
  · exact carries.phase
  · exact carries.withoutCloud
  · split
    · exact carries.withoutCloud
    · exact carries.phase

/-- A check of the cloud leg either lets the attempt go on or drops the cloud leg. -/
theorem orWithoutCloud_holds {analysis : Analysis} {check : Except Error Unit} {next : Op Worker}
    {guarantee : Store → List Row → Prop}
    (continues : check = .ok () →
      next.Holds Store.putMany guarantee (fun next _ => Carries id revision next) store) :
    (orWithoutCloud job analysis check next).Holds Store.putMany guarantee
      (fun next _ => Carries id revision next) store := by
  cases check with
  | ok _ => exact continues rfl
  | error error => exact carries.withoutCloud

theorem cloudStep_holds {cancelled : Bool} {analysis : Analysis} {consent : CloudConsent}
    {config : ProviderConfig} {leg : CloudLeg} {answer : Answer} {op : Op Worker}
    {guarantee : Store → List Row → Prop}
    (enabled : cloudStep services now cancelled job analysis consent config leg answer = some op) :
    op.Holds Store.putMany guarantee (fun next _ => Carries id revision next) store := by
  unfold cloudStep at enabled
  split at enabled <;> first | cases enabled; done | obtain rfl := Option.some.inj enabled
  · rw [Program.holds_pure]
    split
    · exact carries.withoutCloud
    · split <;> exact carries.phase
  · rw [Program.holds_bind, Program.holds_current]
    exact orWithoutCloud_holds carries fun _ => carries.phase
  · rw [Program.holds_bind, Program.holds_current]
    exact orWithoutCloud_holds carries fun _ => carries.phase
  · rw [Program.holds_bind, Program.holds_current]
    refine orWithoutCloud_holds carries fun _ => ?_
    exact pollResult_carries carries analysis consent config _

theorem acceptFindings_holds (analysis : Analysis) (consent : CloudConsent)
    (config : ProviderConfig) (findings : List CloudFinding)
    {guarantee : Store → List Row → Prop} :
    (acceptFindings services now job analysis consent config findings).Holds Store.putMany
      guarantee (fun next _ => Carries id revision next) store := by
  simp only [acceptFindings, Program.holds_bind, Program.holds_current]
  split
  · exact carries.phase
  · exact carries.withoutCloud

theorem openSource_holds (selection : Option AiModelSelection)
    {guarantee : Store → List Row → Prop} :
    (openSource services job selection).Holds Store.putMany guarantee
      (fun next _ => Carries id revision next) store := by
  simp only [openSource, Program.holds_bind, Program.holds_current, Program.holds_lift,
    Program.holds_refuse]
  intro _ _ _
  cases selection <;> exact carries.phase

theorem finishLocal_holds (holds : Published store) (unused : store.results.get resultId = none)
    (cancelled : Bool) (analysis : Analysis) (waiting : Bool) :
    (finishLocal services now resultId cancelled job analysis waiting).Holds Store.putMany
      (AttemptRows [resultId] id revision) (fun next _ => Carries id revision next) store := by
  cases carries with
  | working keyed sameRevision nameless running =>
      let unauthorized : Material :=
        { job.material with reasonCode := some "cloud_authorization_revoked" }
      unfold finishLocal
      split
      · exact finishAttempt_holds (m := unauthorized) holds unused keyed sameRevision nameless _ _ .idle
      · exact finishAttempt_holds holds unused keyed sameRevision nameless _ _ .idle

/-- Every step of an attempt commits only rows of the attempt and carries it on. -/
theorem Job.step_holds (holds : Published store) (unused : store.results.get resultId = none)
    {cancelled : Bool} {answer : Answer} {op : Op Worker}
    (enabled : job.step services now resultId cancelled phase answer = some op) :
    op.Holds Store.putMany (AttemptRows [resultId] id revision)
      (fun next _ => Carries id revision next) store := by
  unfold Job.step at enabled
  split at enabled
  case h_24 => cases enabled
  case h_21 => exact cloudStep_holds carries enabled
  all_goals obtain rfl := Option.some.inj enabled
  case h_1 => exact carries.phase
  case h_2 =>
    split
    · exact carries.phase
    · trivial
  case h_3 =>
    simp only [Program.holds_bind, Program.holds_refuse, Program.holds_lift]
    exact fun _ _ _ => carries.phase
  case h_4 => exact openSource_holds carries _
  case h_5 =>
    rw [Program.holds_bind]
    exact saveAiStage_holds carries carries.phase
  case h_6 => exact carries.phase
  case h_7 =>
    simp only [Program.holds_bind, Program.holds_refuse]
    exact fun _ => carries.phase
  case h_8 => exact carries.phase
  case h_9 => exact storeText_holds carries holds _ _
  case h_10 =>
    rw [Program.holds_bind]
    exact saveAiStage_holds carries carries.phase
  case h_11 =>
    rw [Program.holds_bind]
    exact saveAiStage_holds carries carries.phase
  case h_12 => exact carries.phase
  case h_13 =>
    rw [Program.holds_pure]
    split <;> exact carries.phase
  case h_14 =>
    cases carries with
    | working keyed sameRevision nameless running =>
        exact finishAttempt_holds holds unused keyed sameRevision nameless _ _
          (.working keyed sameRevision nameless running)
  case h_15 =>
    rw [Program.holds_bind]
    exact saveAiStage_holds carries .idle
  case h_16 =>
    rw [Program.holds_bind]
    exact (saveAiStage_holds carries .idle).imp (fun _ _ row => row) (fun _ _ _ => trivial)
  case h_17 =>
    cases carries with
    | working keyed sameRevision nameless running =>
        simp only [Program.holds_bind, Program.holds_lift]
        exact fun _ _ => .working keyed sameRevision nameless running
  case h_18 => trivial
  case h_19 => exact saveAnalysis_holds carries _
  case h_20 =>
    rw [Program.holds_bind]
    exact claimCloud_holds carries _
  case h_22 => exact acceptFindings_holds carries _ _ _ _
  case h_23 => exact finishLocal_holds carries holds unused _ _ _

end

/-- Settling a failure writes the material only while it is current. -/
theorem failMaterial_holds (holds : Published store) (code : String) :
    (failMaterial id revision code).Holds Store.putMany
      (AttemptRows [resultId] id revision) (fun _ _ => True) store := by
  simp only [failMaterial, Program.holds_bind, Program.holds_current, Program.holds_lift,
    Store.material_eq_ok]
  intro stored found
  split
  case isFalse => trivial
  case isTrue isCurrent =>
    have current : Current store id revision stored := ⟨found, isCurrent.1, isCurrent.2⟩
    have keyed := holds.materialKeyed found
    have unnamed := holds.nameless found (by simp [isCurrent.2])
    subst keyed
    exact ⟨.move (m := failedMaterial stored code) current rfl isCurrent.1 unnamed
      (by simp [failedMaterial]), trivial⟩

/-- Every step of a worker commits only rows of its attempt and carries it on. -/
theorem Worker.step_holds (holds : Published store) (unused : store.results.get resultId = none)
    {cancelled : Bool} {worker : Worker} {answer : Answer} {op : Op Worker}
    (carries : Carries id revision worker)
    (enabled : worker.step services now resultId cancelled answer = some op) :
    op.Holds Store.putMany (AttemptRows [resultId] id revision)
      (fun next _ => Carries id revision next) store := by
  unfold Worker.step at enabled
  split at enabled
  · cases enabled
  · obtain rfl := Option.some.inj enabled
    cases carries with
    | working keyed sameRevision nameless running =>
        subst keyed sameRevision
        exact .settling
  · exact Job.step_holds carries holds unused enabled
  · obtain rfl := Option.some.inj enabled
    cases carries with
    | settling =>
        rw [Program.holds_bind]
        exact (failMaterial_holds holds _).imp (fun _ _ row => row) (fun _ _ _ => .idle)
  · cases enabled

end Steps

end LawyerAssistance.Workspace

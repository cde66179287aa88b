import LawyerAssistance.Backups.Records
import LawyerAssistance.Backups.StagingOrder
import LawyerAssistance.Std.Machine

/-!
# Recovery of the staging directory

A store runs operations one after the other until one of them is interrupted, and then it is opened
again. Every file of `.staging` has an accepted name, so that the next opening succeeds and leaves
`.staging` empty, and no database in plaintext is left behind an operation which ends, in every run
in which no revocation is cut short behind the creation of its file, and no copy of a database
fails to be written or removed.
-/

namespace LawyerAssistance.Backups

open Privacy Lifecycle

/-! ## Opening -/

/-- The directory without the files of some names. -/
def removeAll (directory : Directory) (names : List Text) : Directory :=
  names.foldl (fun left name => left.erase name) directory

/-- A file which is left was there, and is none of those which are removed. -/
theorem mem_removeAll {directory : Directory} {names : List Text} {name : Text} :
    name ∈ removeAll directory names ↔ name ∈ directory ∧ name ∉ names := by
  induction names generalizing directory with
  | nil => exact ⟨fun among => ⟨among, List.not_mem_nil⟩, And.left⟩
  | cons removed rest inductionHypothesis =>
      rw [removeAll, List.foldl_cons, ← removeAll, inductionHypothesis, AList.mem_erase,
        List.mem_cons, not_or]
      exact ⟨fun ⟨⟨different, among⟩, behind⟩ => ⟨among, different, behind⟩,
        fun ⟨among, different, behind⟩ => ⟨⟨different, among⟩, behind⟩⟩

theorem eq_empty_of_forall_not_mem {directory : Directory} (empty : ∀ name, name ∉ directory) :
    directory = ∅ := by
  apply AList.ext
  have none : directory.entries.keys = [] := List.eq_nil_iff_forall_not_mem.mpr empty
  exact List.map_eq_nil_iff.mp none

/-- Accepted entries are removed. -/
theorem cleanupStaleEntries_complete {names : List Text} {root : BackupRoot}
    (accepted : ∀ name ∈ names, isExactBackupStagingName name = true) :
    (cleanupStaleEntries names).complete BackupRoot.apply root =
      ({ root with staging := removeAll root.staging names }, .ok ()) := by
  induction names generalizing root with
  | nil => rfl
  | cons name rest inductionHypothesis =>
      have here := accepted name List.mem_cons_self
      have behind := @inductionHypothesis (root.apply (.remove name)) fun other among =>
        accepted other (List.mem_cons_of_mem _ among)
      have passed : refuseIf (isExactBackupStagingName name = false) LifecycleError.unsafeFilesystem =
          .ok () := refuseIf_eq_ok.mpr (by rw [here]; nofun)
      rw [cleanupStaleEntries, Script.complete_bind, Script.complete_refuse, passed]
      exact behind

/-- A store whose files have accepted names is opened, and `.staging` is empty then. -/
theorem openStore_complete {root : BackupRoot}
    (accepted : root.Staged fun name => isExactBackupStagingName name = true) :
    openStore.complete BackupRoot.apply root = ({ root with staging := ∅ }, .ok ()) := by
  change (cleanupStaleEntries root.staging.keys).complete BackupRoot.apply root = _
  rw [cleanupStaleEntries_complete accepted]
  have empty : removeAll root.staging root.staging.keys = ∅ := by
    refine eq_empty_of_forall_not_mem fun name among => ?_
    obtain ⟨there, gone⟩ := mem_removeAll.mp among
    exact gone (AList.mem_keys.mp there)
  rw [empty]

/-- A store which is opened, whatever fails, creates no files. -/
theorem always_openStore {names : Text → Prop} :
    openStore.Always (BackupEffect.Touches names fun _ => False) := by
  refine Script.always_current.bind fun root => ?_
  induction root.staging.keys with
  | nil => exact Script.always_pure
  | cons name rest inductionHypothesis =>
      exact Script.always_refuse.bind fun _ => (Script.always_perform.mpr touches_remove).bind
        fun _ => inductionHypothesis

/-- When the entries are removed without an error, no file is left which is none of them. -/
theorem cleanupStaleEntries_holds {names : List Text} {root : BackupRoot} :
    (cleanupStaleEntries names).Holds BackupRoot.apply (fun _ => True) (fun _ _ => True)
      (fun result final => result = .ok () → final.staging = removeAll root.staging names) root := by
  induction names generalizing root with
  | nil => exact fun _ => rfl
  | cons name rest inductionHypothesis =>
      refine Script.holds_bind.mpr (Script.holds_refuse.mpr ⟨fun _ => nofun, fun _ => ?_⟩)
      refine Script.holds_bind.mpr (Script.holds_perform.mpr ⟨trivial, ?_, fun _ => nofun⟩)
      exact @inductionHypothesis (root.apply (.remove name))

/-- Behind an opening which succeeds `.staging` is empty. -/
theorem openStore_run {root : BackupRoot} {answers : List Bool}
    (opened : (openStore.run BackupRoot.apply root answers).result = some (.ok ())) :
    (openStore.run BackupRoot.apply root answers).state.staging = ∅ := by
  have holds : openStore.Holds BackupRoot.apply (fun _ => True) (fun _ _ => True)
      (fun result final => result = .ok () → final.staging = removeAll root.staging
        root.staging.keys) root := cleanupStaleEntries_holds
  rw [holds.run_post (Script.admits_of_mayFail _ (fun _ => trivial) _ _) opened rfl]
  refine eq_empty_of_forall_not_mem fun name among => ?_
  obtain ⟨there, gone⟩ := mem_removeAll.mp among
  exact gone (AList.mem_keys.mp there)

/-! ## Runs -/

/-- A store: its files, and whether the process which opened it runs. -/
structure StoreState where
  root : BackupRoot
  running : Bool

/-- An operation with what the environment chooses and answers, or the next opening. -/
inductive StoreEvent where
  | operate (operation : BackupOperation) (choices : BackupChoices) (answers : List Bool)
  | reopen (answers : List Bool)

/-- A store which runs operations, and is opened again behind an interruption. -/
def storeMachine (host : BackupHost) : Machine StoreState StoreEvent where
  step state
    | .operate operation choices answers =>
        if state.running then
          let outcome := (operation.script host choices).run BackupRoot.apply state.root answers
          some ⟨outcome.state, outcome.result.isSome⟩
        else none
    | .reopen answers =>
        let outcome := openStore.run BackupRoot.apply state.root answers
        some ⟨outcome.state, decide (outcome.result = some (.ok ()))⟩

/-- A new store, with the backups which are there. -/
def StoreState.fresh (backups : Directory) : StoreState := ⟨⟨∅, backups⟩, true⟩

/-- No failure exposes a database in plaintext, and a revocation is not cut short behind the
creation of its file. -/
def StoreEvent.Careful (host : BackupHost) (state : StoreState) : StoreEvent → Prop
  | .operate operation choices answers =>
      (operation.script host choices).Admits BackupRoot.apply (fun effect => ¬ effect.Exposes)
        state.root answers ∧
      (operation.isRevocation = true → Undisturbed answers)
  | .reopen _ => True

/-- The staging directory of a store recovers: its names are accepted, the next opening succeeds
and leaves it empty, and behind an operation which ended it has no database in plaintext. -/
structure StoreState.Recovers (state : StoreState) : Prop where
  accepted : state.root.Staged fun name => isExactBackupStagingName name = true
  opens : openStore.complete BackupRoot.apply state.root = ({ state.root with staging := ∅ }, .ok ())
  clean : state.running = true → state.root.Clean

/-- Accepted names and no database in plaintext are all that recovery takes. -/
theorem recovers_of {state : StoreState}
    (accepted : state.root.Staged fun name => isExactBackupStagingName name = true)
    (clean : state.running = true → state.root.Clean) : state.Recovers :=
  ⟨accepted, openStore_complete accepted, clean⟩

theorem recovers_of_subset {state : StoreState} {root : BackupRoot} {running : Bool}
    (recovers : state.Recovers) (clean : state.root.Clean)
    (fewer : ∀ name ∈ root.staging, name ∈ state.root.staging) :
    StoreState.Recovers ⟨root, running⟩ :=
  recovers_of (fun name among => recovers.accepted name (fewer name among))
    fun _ name among => clean name (fewer name among)

/-- A careful step keeps recovery. -/
theorem recovers_step {host : BackupHost} {state next : StoreState} {event : StoreEvent}
    (recovers : state.Recovers) (careful : event.Careful host state)
    (step : (storeMachine host).step state event = some next) : next.Recovers := by
  cases event with
  | operate operation choices answers =>
      simp only [storeMachine] at step
      split_ifs at step with running
      cases step
      obtain ⟨admitted, undisturbed⟩ := careful
      have clean := recovers.clean running
      cases revocation : operation.isRevocation with
      | true =>
          have complete := undisturbed revocation
          cases operation with
          | revoke registry backupId revokedAtUnix =>
              exact recovers_of_subset recovers clean fun _ =>
                revokeBackup_staging host choices complete
          | exportDatabase | verify | restore | verifyDetached | restoreDetached | exportBundle |
            importBundle | importBundleForRollback => cases revocation
      | false =>
          have orderly := orderly_script host choices revocation
          exact recovers_of
            (orderly.accepted.run_invariant _ _ BackupRoot.Staged.apply recovers.accepted answers)
            fun ended => orderly.clean.run_result clean admitted ended
  | reopen answers =>
      cases step
      refine recovers_of (always_openStore.run_invariant _ _ BackupRoot.Staged.apply
        recovers.accepted answers) fun opened => ?_
      have empty := openStore_run (of_decide_eq_true opened)
      intro name among
      rw [empty] at among
      exact absurd among (AList.notMem_empty _)

/-- In every run whose steps are careful the staging directory of a store recovers at every state
which is reached. A name which an operation creates is accepted exactly when it is not the file of
a revocation, and a name which is accepted is one which an operation creates exactly when it is not
beside the file of an atomic write. -/
theorem backup_staging_recovers (host : BackupHost) :
    (∀ (backups : Directory) (events : List StoreEvent) (final : StoreState),
      (storeMachine host).Along (fun state event _ => event.Careful host state)
        (.fresh backups) events →
      (storeMachine host).run (.fresh backups) events = some final → final.Recovers) ∧
    (∀ (kind : StagingKind) (name : Text), kind.Names name →
      (isExactBackupStagingName name = true ↔ kind ≠ .revocation)) ∧
    (∀ name : Text, isExactBackupStagingName name = true →
      (Creatable name ↔ ¬ BesideWrite name)) := by
  refine ⟨?_, fun kind name names => names_accepted names, fun name accepted =>
    accepted_creatable_iff accepted⟩
  intro backups events final careful runs
  have start : (StoreState.fresh backups).Recovers :=
    recovers_of (fun name among => absurd among (AList.notMem_empty _))
      fun _ name among => absurd among (AList.notMem_empty _)
  generalize StoreState.fresh backups = state at careful runs start
  induction events generalizing state with
  | nil =>
      cases runs
      exact start
  | cons event rest inductionHypothesis =>
      obtain ⟨next, step, runs⟩ := Machine.run_cons_eq_some _ |>.mp runs
      obtain ⟨here, careful⟩ := careful next step
      exact inductionHypothesis next careful runs (recovers_step start here step)

/-! ## A revocation which is cut short -/

section Interrupted

variable (host : BackupHost) (choices : BackupChoices) {root : BackupRoot} {backupId : Text}
  {revokedAtUnix : UInt64} {state : ProtectedBackupState} {blob : Octets}

/-- A revocation of an active backup which is interrupted behind its first effect leaves the file
which it created. -/
theorem revokeBackup_interrupted (registry : BackupRegistry)
    (valid : validOpaqueId "bkp_".toList backupId = true) (time : revokedAtUnix ≠ 0)
    (loads : (host.loadBackupState backupId).complete BackupRoot.apply root = (root, .ok state))
    (active : state.state = activeState)
    (computed : host.protectState choices { state with
      state := revokedState, revokedAtUnix := some revokedAtUnix } = .ok blob)
    (new : stagingName .revocation backupId choices.revocationRandom ∉ root.staging) :
    ((BackupOperation.revoke registry backupId revokedAtUnix).script host choices).run
        BackupRoot.apply root [true] =
      ⟨root.apply (.create (stagingName .revocation backupId choices.revocationRandom)), none⟩ := by
  have checked : checkOpaqueId backupId "bkp_".toList = .ok () := checkOpaqueId_eq_ok.mpr valid
  have apart : state.state ≠ revokedState := by
    rw [active]
    decide
  have named : temporaryPath backupId choices.revocationRandom "state.tmp".toList =
      .ok (stagingName .revocation backupId choices.revocationRandom) := by
    rw [temporaryPath, checked, ok_bind, temporaryName_state]
    rfl
  rw [BackupOperation.script, BackupHost.revokeBackup, Script.bind_assoc, Script.run_lift_bind,
    checked]
  dsimp only
  rw [Script.bind_assoc, Script.run_refuse_bind, if_neg time, Script.bind_assoc,
    BackupHost.revokeBackupState, Script.bind_assoc, Script.run_quiet_bind
      (quiet_loadBackupState host), loads]
  dsimp only
  rw [Script.bind_assoc, Script.run_refuse_bind, if_neg time, if_neg apart, Script.bind_assoc,
    Script.run_refuse_bind, if_neg (not_not.mpr active), Script.bind_assoc, Script.run_lift_bind,
    computed]
  dsimp only
  rw [Script.bind_assoc, Script.run_lift_bind, named]
  dsimp only
  rw [Script.bind_assoc, writeNewSafeFile, Script.bind_assoc, Script.run_current_bind,
    Script.bind_assoc, Script.run_refuse_bind, if_neg new]
  rfl

end Interrupted

/-- A hash which is the same for all bytes. -/
def sampleHash : Sha256Hex := ⟨List.replicate 64 '0', Eq.refl true⟩

/-- A platform which hides nothing. -/
def samplePlatform : CryptoPlatform where
  sealBytes _ _ plaintext _ := some (plaintext, ⟨List.replicate 16 0, rfl⟩)
  openBytes _ _ ciphertext _ _ := some ciphertext
  protect _ plaintext := if plaintext = [] then none else some plaintext
  unprotect blob := some blob

/-- The platform which hides nothing protects what is not empty. -/
theorem samplePlatform_protect {random plaintext blob : Octets} :
    samplePlatform.protect random plaintext = some blob ↔ plaintext ≠ [] ∧ plaintext = blob := by
  change (if plaintext = [] then none else some plaintext) = some blob ↔ _
  split_ifs with empty
  · exact ⟨nofun, fun both => absurd empty both.1⟩
  · exact ⟨fun same => ⟨empty, Option.some.inj same⟩, fun both => congrArg some both.2⟩

/-- The platform which hides nothing undoes what it does. -/
theorem ideal_samplePlatform : samplePlatform.Ideal where
  opens computed := by
    cases computed
    rfl
  sameLength computed := by
    cases computed
    rfl
  unprotects computed := by
    obtain ⟨_, rfl⟩ := samplePlatform_protect.mp computed
    rfl
  nonempty computed := by
    obtain ⟨nonempty, rfl⟩ := samplePlatform_protect.mp computed
    exact nonempty
  short computed := by
    obtain ⟨_, rfl⟩ := samplePlatform_protect.mp computed
    exact Nat.le_add_right _ _

/-- A host with that platform, on which a database is its content. -/
def sampleHost : BackupHost where
  sha256Hex _ := sampleHash
  platform := samplePlatform
  readSchemaVersion _ := .ok privacyStoreSchemaVersion
  snapshotImage database := .ok database.content
  openImage _ := .error .database
  validateConnection _ _ _ _ := .ok ()

/-- Random bytes of a name. -/
def sampleRandom : NameRandom := ⟨List.replicate 8 0, rfl⟩

/-- Choices of an environment in which nothing fails. -/
def sampleChoices : BackupChoices where
  snapshotRandom := sampleRandom
  verifyRandom := sampleRandom
  restoreRandom := sampleRandom
  envelopeRandom := sampleRandom
  stateRandom := sampleRandom
  revocationRandom := sampleRandom
  snapshotActivity := []
  closingActivity := []
  verifyActivity := []
  restoreActivity := []
  dataKey := ⟨List.replicate 32 0, rfl⟩
  nonce := ⟨List.replicate 12 0, rfl⟩
  wrapRandom := []
  protectRandom := []
  copyFails := false
  registryFails := false

/-- An identifier of a backup. -/
def sampleId : Text := "bkp_".toList ++ List.replicate 32 '0'

/-- The state of an active backup. -/
def sampleState : ProtectedBackupState where
  schemaVersion := protectedBackupStateVersion
  backupId := sampleId
  workspaceInstanceId := ⟨"ws_".toList ++ List.replicate 32 '0', by decide⟩
  envelopeSha256 := sampleHash.1
  createdAtUnix := 1
  expiresAtUnix := 9
  keyEpoch := 1
  state := activeState
  revokedAtUnix := none

/-- A registry without rows. -/
def sampleRegistry : BackupRegistry where
  lifecycleSchemaVersion := 1
  workspaceInstanceId := []
  rows := []

/-- The files of the active backup, as far as a revocation reads them. -/
theorem exists_sampleBackups : ∃ (backups : Directory) (revoked : Octets),
    (sampleHost.loadBackupState sampleId).complete BackupRoot.apply ⟨∅, backups⟩ =
      (⟨∅, backups⟩, .ok sampleState) ∧
    sampleHost.protectState sampleChoices { sampleState with
      state := revokedState, revokedAtUnix := some 5 } = .ok revoked := by
  have protects : ∀ plaintext, plaintext ≠ [] → ∃ blob,
      sampleHost.platform.protect sampleChoices.protectRandom plaintext = some blob :=
    fun plaintext nonempty => ⟨plaintext, samplePlatform_protect.mpr ⟨nonempty, rfl⟩⟩
  have valid : sampleState.validate = .ok () := by decide
  have validRevoked : ProtectedBackupState.validate { sampleState with
    state := revokedState, revokedAtUnix := some 5 } = .ok () := by decide
  obtain ⟨blob, active⟩ := exists_protectState valid protects
  obtain ⟨revoked, computed⟩ := exists_protectState validRevoked protects
  obtain ⟨nonempty, short⟩ := length_protectState ideal_samplePlatform active
  refine ⟨(∅ : Directory).insert (backupStateName sampleId) blob, revoked, ?_, computed⟩
  exact loadBackupState_complete (by decide) (AList.lookup_insert _) nonempty
    (short.trans (by decide)) (unprotectState_protectState ideal_samplePlatform active) rfl

/-- A store with one file whose name is not accepted is not opened. -/
theorem openStore_refuses {name : Text} (refused : isExactBackupStagingName name = false)
    (bytes : Octets) (backups : Directory) :
    (openStore.complete BackupRoot.apply ⟨(∅ : Directory).insert name bytes, backups⟩).2 =
      .error .unsafeFilesystem := by
  have stops : refuseIf (isExactBackupStagingName name = false) LifecycleError.unsafeFilesystem =
      .error .unsafeFilesystem := if_pos refused
  rw [openStore, Script.complete_bind_of_eq Script.complete_current, AList.keys_insert,
    cleanupStaleEntries, Script.complete_bind, Script.complete_refuse, stops]

/-- A revocation which is interrupted behind its first effect leaves a file which is not accepted,
so that the store is not opened again; and a name beside the file of an atomic write is accepted. -/
theorem interrupted_revocation_blocks_the_store :
    (∃ (backups : Directory) (final : StoreState),
      (storeMachine sampleHost).run (.fresh backups)
        [.operate (.revoke sampleRegistry sampleId 5) sampleChoices [true]] = some final ∧
      (∃ name ∈ final.root.staging, isExactBackupStagingName name = false) ∧
      (openStore.complete BackupRoot.apply final.root).2 = .error .unsafeFilesystem) ∧
    ∃ name, isExactBackupStagingName name = true ∧ ¬ Creatable name := by
  constructor
  · obtain ⟨backups, revoked, loads, computed⟩ := exists_sampleBackups
    have valid : validOpaqueId "bkp_".toList sampleId = true := by decide
    have interrupted := revokeBackup_interrupted sampleHost sampleChoices sampleRegistry valid
      (by decide) loads rfl computed (AList.notMem_empty _)
    have refused : isExactBackupStagingName (stagingName .revocation sampleId sampleRandom) =
        false := by
      rw [← Bool.not_eq_true, names_accepted (.file valid sampleRandom)]
      exact fun plain => plain rfl
    refine ⟨backups, ⟨⟨(∅ : Directory).insert (stagingName .revocation sampleId sampleRandom) [],
      backups⟩, false⟩, ?_, ⟨_, (AList.mem_insert _).mpr (.inl rfl), refused⟩, ?_⟩
    · rw [Machine.run_singleton, storeMachine]
      dsimp only
      rw [if_pos (show (StoreState.fresh backups).running = true from rfl)]
      exact congrArg some (congrArg (fun outcome : Script.Outcome _ _ _ =>
        (⟨outcome.state, outcome.result.isSome⟩ : StoreState)) interrupted)
    · exact openStore_refuses refused [] backups
  · exact ⟨_, besideWrite_accepted ⟨sampleId, sampleRandom, .wal, by decide, rfl⟩⟩

/-- The same revocation, answered to its end, and the opening behind it. -/
theorem backup_staging_recovers_sample : ∃ (backups : Directory) (final : StoreState),
    (sampleHost.loadBackupState sampleId).complete BackupRoot.apply ⟨∅, backups⟩ =
      (⟨∅, backups⟩, .ok sampleState) ∧
    (storeMachine sampleHost).run (.fresh backups)
      [.operate (.revoke sampleRegistry sampleId 5) sampleChoices [true, true, true],
        .reopen []] = some final ∧ final.Recovers := by
  obtain ⟨backups, _, loads, _⟩ := exists_sampleBackups
  refine ⟨backups, _, loads, rfl, (backup_staging_recovers sampleHost).1 backups
    [.operate (.revoke sampleRegistry sampleId 5) sampleChoices [true, true, true], .reopen []]
    _ ?_ rfl⟩
  refine fun _ _ => ⟨⟨Script.admits_of_succeeds _ _ (by decide), fun _ => trivial⟩, ?_⟩
  exact fun _ _ => ⟨trivial, trivial⟩

end LawyerAssistance.Backups

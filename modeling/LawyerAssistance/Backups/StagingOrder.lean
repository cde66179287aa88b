import LawyerAssistance.Backups.Store
import LawyerAssistance.Backups.StagingNames

/-!
# What the operations leave in the staging directory

Every operation but a revocation creates only files with accepted names, whatever is answered, and
leaves no database in plaintext when no copy of a database fails to be written or removed. A
revocation which is not cut short behind the creation of its file leaves no new file.
-/

namespace LawyerAssistance.Backups

open Privacy Lifecycle

/-! ## Operations -/

/-- An operation of the store, with what it is given. -/
inductive BackupOperation where
  | exportDatabase (database : PrivacyDatabase) (workspace : WorkspaceInstanceId)
      (request : BackupExportRequest) (expectation : BackupSchemaExpectation)
  | verify (registry : BackupRegistry) (backupId : Text) (context : BackupVerificationExpectation)
  | restore (registry : BackupRegistry) (destination : Option PrivacyDatabase) (backupId : Text)
      (context : BackupVerificationExpectation)
  | verifyDetached (backupId : Text) (context : BackupVerificationExpectation)
  | restoreDetached (destination : Option PrivacyDatabase) (backupId : Text)
      (context : BackupVerificationExpectation)
  | revoke (registry : BackupRegistry) (backupId : Text) (revokedAtUnix : UInt64)
  | exportBundle (backupId : Text) (context : BackupVerificationExpectation)
  | importBundle (bundle : Octets) (context : BackupVerificationContext)
  | importBundleForRollback (bundle : Octets) (context : BackupVerificationContext)

/-- A revocation, which replaces a state. -/
def BackupOperation.isRevocation : BackupOperation → Bool
  | .revoke .. => true
  | _ => false

/-- What an operation does to the files, whatever it returns. -/
def BackupOperation.script (host : BackupHost) (choices : BackupChoices) :
    BackupOperation → BackupScript Unit
  | .exportDatabase database workspace request expectation => do
      let _ ← host.exportDatabaseWithSchemaExpectation choices database workspace request expectation
      pure ()
  | .verify registry backupId context => do
      let _ ← host.verifyBackup choices registry backupId context
      pure ()
  | .restore registry destination backupId context => do
      let _ ← host.restoreIntoEmptyDatabase choices registry destination backupId context
      pure ()
  | .verifyDetached backupId context => do
      let _ ← host.verifyDetachedBackup choices backupId context
      pure ()
  | .restoreDetached destination backupId context => do
      let _ ← host.restoreDetachedIntoEmptyDatabase choices destination backupId context
      pure ()
  | .revoke registry backupId revokedAtUnix => do
      let _ ← host.revokeBackup choices registry backupId revokedAtUnix
      pure ()
  | .exportBundle backupId context => do
      let _ ← host.exportPortableBundle choices backupId context
      pure ()
  | .importBundle bundle context => do
      let _ ← host.importPortableBundle choices bundle context
      pure ()
  | .importBundleForRollback bundle context => do
      let _ ← host.importPortableBundleForRollback choices bundle context
      pure ()

/-! ## Names of effects -/

/-- An effect creates and writes files of such names, and changes or checks such files of
`backups`. -/
def BackupEffect.Touches (names targets : Text → Prop) : BackupEffect → Prop
  | .create name | .write name _ => names name
  | .remove _ => True
  | .install _ target | .uninstall target | .check target => targets target

theorem touches_create {names targets : Text → Prop} {name : Text} :
    (BackupEffect.create name).Touches names targets ↔ names name := Iff.rfl

theorem touches_write {names targets : Text → Prop} {name : Text} {bytes : Octets} :
    (BackupEffect.write name bytes).Touches names targets ↔ names name := Iff.rfl

theorem touches_remove {names targets : Text → Prop} {name : Text} :
    (BackupEffect.remove name).Touches names targets := trivial

theorem touches_install {names targets : Text → Prop} {name target : Text} :
    (BackupEffect.install name target).Touches names targets ↔ targets target := Iff.rfl

theorem touches_uninstall {names targets : Text → Prop} {target : Text} :
    (BackupEffect.uninstall target).Touches names targets ↔ targets target := Iff.rfl

theorem touches_check {names targets : Text → Prop} {target : Text} :
    (BackupEffect.check target).Touches names targets ↔ targets target := Iff.rfl

/-- Every file of `.staging` has such a name. -/
def BackupRoot.Staged (names : Text → Prop) (root : BackupRoot) : Prop :=
  ∀ name ∈ root.staging, names name

/-- Effects on files of such names leave files of such names. -/
theorem BackupRoot.Staged.apply {names targets : Text → Prop} {root : BackupRoot} {effect : BackupEffect}
    (staged : root.Staged names) (touches : effect.Touches names targets) :
    (root.apply effect).Staged names := by
  intro name among
  cases effect with
  | create created | write created _ =>
      obtain rfl | among := (AList.mem_insert _).mp among
      · exact touches
      · exact staged name among
  | remove removed => exact staged name (AList.mem_erase.mp among).2
  | install moved target =>
      rw [BackupRoot.apply] at among
      split at among
      · exact staged name (AList.mem_erase.mp among).2
      · exact staged name among
  | uninstall target | check target => exact staged name among

theorem BackupRoot.Staged.create {names : Text → Prop} {root : BackupRoot} {name : Text}
    (staged : root.Staged names) (named : names name) :
    (root.apply (.create name)).Staged names :=
  @Staged.apply names (fun _ => True) root (.create name) staged named

theorem BackupRoot.Staged.write {names : Text → Prop} {root : BackupRoot} {name : Text}
    (staged : root.Staged names) (named : names name) (bytes : Octets) :
    (root.apply (.write name bytes)).Staged names :=
  @Staged.apply names (fun _ => True) root (.write name bytes) staged named

theorem BackupRoot.Staged.remove {names : Text → Prop} {root : BackupRoot}
    (staged : root.Staged names) (name : Text) : (root.apply (.remove name)).Staged names :=
  @Staged.apply names (fun _ => True) root (.remove name) staged trivial

section Touches

variable {names targets : Text → Prop}

theorem always_writeNewSafeFile {name : Text} {bytes : Octets} (named : names name) :
    (writeNewSafeFile name bytes).Always (BackupEffect.Touches names targets) :=
  Script.always_current.bind fun _ => Script.always_refuse.bind fun _ =>
    (Script.always_perform.mpr (touches_create.mpr named)).bind fun _ =>
      Script.always_perform.mpr (touches_write.mpr named)

/-- Nothing is written when files are removed. -/
theorem always_removeSafeTemporary {name : Text} :
    (removeSafeTemporary name).Always (BackupEffect.Touches names targets) := by
  refine Script.always_current.bind fun root => ?_
  by_cases present : name ∈ root.staging
  · rw [if_pos present]
    exact Script.always_perform.mpr touches_remove
  · rw [if_neg present]
    exact Script.always_pure

theorem always_removeSensitiveSqliteTemporary {path : Text} :
    (removeSensitiveSqliteTemporary path).Always (BackupEffect.Touches names targets) :=
  always_removeSafeTemporary.bind fun _ => always_removeSafeTemporary.bind fun _ =>
    always_removeSafeTemporary.bind fun _ => always_removeSafeTemporary

theorem always_finishSensitiveTemporary {α : Type} {path : Text}
    {result : Except LifecycleError α} :
    (finishSensitiveTemporary path result).Always (BackupEffect.Touches names targets) :=
  always_removeSensitiveSqliteTemporary.bind fun _ => Script.always_lift

/-- SQLite has files beside the database which it has open. -/
theorem always_sqliteActivity {path : Text} (beside : ∀ sidecar : Sidecar, names (path ++ sidecar.suffix))
    (changes : List SidecarChange) :
    (sqliteActivity path changes).Always (BackupEffect.Touches names targets) := by
  induction changes with
  | nil => exact Script.always_pure
  | cons change rest inductionHypothesis =>
      rw [sqliteActivity]
      cases change.present with
      | true =>
          exact (Script.always_tryPerform.mpr (touches_create.mpr (beside change.sidecar))).bind
            fun _ => inductionHypothesis
      | false =>
          exact (Script.always_tryPerform.mpr touches_remove).bind fun _ => inductionHypothesis

/-- An atomic write creates one file. -/
theorem always_writeAtomicNewFile {target backupId : Text} {bytes : Octets} {random : NameRandom}
    (named : names (writeName backupId random)) (targeted : targets target) :
    (writeAtomicNewFile target bytes backupId random).Always (BackupEffect.Touches names targets) := by
  refine Script.always_current.bind fun _ => Script.always_refuse.bind fun _ =>
    (always_writeNewSafeFile named).bind fun _ => ?_
  refine (Script.always_perform.mpr (touches_install.mpr targeted)).settle.bind fun moved => ?_
  cases moved with
  | ok _ => exact Script.always_perform.mpr (touches_check.mpr targeted)
  | error _ => exact always_finishSensitiveTemporary

end Touches

/-! ## Databases in plaintext -/

/-- The failures behind which a database in plaintext stays: the write of a copy, and a removal. -/
def BackupEffect.Exposes : BackupEffect → Prop
  | .write name _ => StagingKind.verify.Names name ∨ StagingKind.restore.Names name
  | .remove name => Plaintext name
  | .create _ | .install _ _ | .uninstall _ | .check _ => False

/-- No file of `.staging` is a database in plaintext. -/
abbrev BackupRoot.Clean (root : BackupRoot) : Prop := root.Staged fun name => ¬ Plaintext name

/-- No file of `.staging` is a database in plaintext but one, and what is beside it. -/
abbrev BackupRoot.CleanBut (path : Text) (root : BackupRoot) : Prop :=
  root.Staged fun name => Plaintext name →
    name = path ∨ ∃ sidecar : Sidecar, name = path ++ sidecar.suffix

theorem BackupRoot.Staged.cleanBut {root : BackupRoot} (clean : root.Clean) (path : Text) :
    root.CleanBut path :=
  fun name among plaintext => absurd plaintext (clean name among)

/-- What a script keeps when no failure exposes a database. -/
abbrev KeepsRoot {α : Type} (invariant : BackupRoot → Prop) (script : BackupScript α) : Prop :=
  script.Keeps BackupRoot.apply (fun effect => ¬ effect.Exposes) (fun _ _ => True) invariant

/-- Where a script ends when no failure exposes a database. -/
abbrev HoldsRoot {α : Type} (post : Except LifecycleError α → BackupRoot → Prop)
    (script : BackupScript α) (root : BackupRoot) : Prop :=
  script.Holds BackupRoot.apply (fun effect => ¬ effect.Exposes) (fun _ _ => True) post root

section Plaintext

variable {root : BackupRoot}

/-- A database in plaintext is removed. -/
theorem holds_removeSafeTemporary {name : Text} {names : Text → Prop} (plaintext : Plaintext name)
    {post : Except LifecycleError Unit → BackupRoot → Prop} (staged : root.Staged names)
    (ensures : ∀ final : BackupRoot, final.Staged (fun other => other ≠ name ∧ names other) →
      post (.ok ()) final) : HoldsRoot post (removeSafeTemporary name) root := by
  refine Script.holds_bind.mpr (Script.holds_current.mpr ?_)
  dsimp only
  split_ifs with present
  · refine Script.holds_perform.mpr ⟨trivial, ensures _ fun other among => ?_, fun harmless => ?_⟩
    · obtain ⟨different, among⟩ := AList.mem_erase.mp among
      exact ⟨different, staged other among⟩
    · exact absurd plaintext harmless
  · refine Script.holds_pure.mpr (ensures _ fun other among => ⟨?_, staged other among⟩)
    rintro rfl
    exact present among

/-- Behind the removal of a database and of what is beside it the root is clean. -/
theorem holds_finishSensitiveTemporary {α : Type} {kind : StagingKind} {backupId : Text}
    {random : NameRandom} {result : Except LifecycleError α} (database : kind.isDatabase = true)
    (valid : validOpaqueId "bkp_".toList backupId = true)
    (clean : root.CleanBut (stagingName kind backupId random)) :
    HoldsRoot (fun _ final => final.Clean)
      (finishSensitiveTemporary (stagingName kind backupId random) result) root := by
  have here : Plaintext (stagingName kind backupId random) := ⟨kind, database, .file valid random⟩
  have beside : ∀ sidecar : Sidecar,
      Plaintext (stagingName kind backupId random ++ sidecar.suffix) :=
    fun sidecar => ⟨kind, database, .beside valid random database sidecar⟩
  refine Script.holds_bind.mpr (Script.holds_bind.mpr ?_)
  refine holds_removeSafeTemporary here clean fun _ clean => Script.holds_bind.mpr ?_
  refine holds_removeSafeTemporary (beside .journal) clean fun _ clean => Script.holds_bind.mpr ?_
  refine holds_removeSafeTemporary (beside .wal) clean fun _ clean => ?_
  refine holds_removeSafeTemporary (beside .shm) clean fun final clean => ?_
  refine Script.holds_lift.mpr fun name among plaintext => ?_
  obtain ⟨shm, wal, journal, file, only⟩ := clean name among
  obtain same | ⟨sidecar, same⟩ := only plaintext
  · exact file same
  · cases sidecar with
    | journal => exact journal same
    | wal => exact wal same
    | shm => exact shm same

/-- A copy which is written is the only database, and no database is left when it is not. -/
theorem holds_writeNewSafeFile {path : Text} {bytes : Octets}
    (copy : StagingKind.verify.Names path ∨ StagingKind.restore.Names path) (clean : root.Clean) :
    HoldsRoot (fun result final =>
        match result with
        | .ok () => final.CleanBut path
        | .error _ => final.Clean)
      (writeNewSafeFile path bytes) root := by
  refine Script.holds_bind.mpr (Script.holds_current.mpr (Script.holds_bind.mpr ?_))
  refine Script.holds_refuse.mpr ⟨fun _ => clean, fun _ => Script.holds_bind.mpr ?_⟩
  refine Script.holds_perform.mpr ⟨trivial, ?_, fun _ => clean⟩
  refine Script.holds_perform.mpr ⟨trivial, ?_, fun harmless => absurd copy harmless⟩
  exact ((clean.cleanBut path).create fun _ => .inl rfl).write (fun _ => .inl rfl) bytes

/-- SQLite leaves databases only beside the one which it has open. -/
theorem holds_sqliteActivity {path : Text} (clean : root.CleanBut path)
    (changes : List SidecarChange) :
    HoldsRoot (fun result final => result = .ok () ∧ final.CleanBut path)
      (sqliteActivity path changes) root := by
  induction changes generalizing root with
  | nil => exact ⟨rfl, clean⟩
  | cons change rest inductionHypothesis =>
      unfold sqliteActivity
      dsimp only
      split_ifs
      · refine Script.holds_bind.mpr (Script.holds_tryPerform.mpr ⟨trivial, ?_, ?_⟩)
        · exact inductionHypothesis (clean.create fun _ => .inr ⟨change.sidecar, rfl⟩)
        · exact fun _ => inductionHypothesis clean
      · refine Script.holds_bind.mpr (Script.holds_tryPerform.mpr ⟨trivial, ?_, ?_⟩)
        · exact inductionHypothesis (clean.remove _)
        · exact fun _ => inductionHypothesis clean

end Plaintext

/-! ## Orderly targets scripts -/

/-- A script which creates only files with accepted names, and leaves no database in plaintext
where it finds none, when no failure exposes one. -/
structure Orderly {α : Type} (targets : Text → Prop) (script : BackupScript α) : Prop where
  accepted : script.Always (BackupEffect.Touches (fun name => isExactBackupStagingName name = true)
    targets)
  clean : KeepsRoot BackupRoot.Clean script

section Orderly

variable {α γ : Type} {targets : Text → Prop} {script : BackupScript α} {next : α → BackupScript γ}

theorem orderly_pure {value : α} : Orderly targets (pure value : BackupScript α) :=
  ⟨Script.always_pure, Script.keeps_pure⟩

theorem orderly_throw {error : LifecycleError} : Orderly targets (Script.throw error : BackupScript α) :=
  ⟨Script.always_throw, Script.keeps_throw⟩

theorem orderly_current : Orderly targets (Script.current : BackupScript BackupRoot) :=
  ⟨Script.always_current, Script.keeps_current⟩

theorem orderly_lift {value : Except LifecycleError α} : Orderly targets (Script.lift value) :=
  ⟨Script.always_lift, Script.keeps_lift⟩

theorem orderly_refuse {condition : Prop} [Decidable condition] {error : LifecycleError} :
    Orderly targets (Script.refuse condition error) :=
  orderly_lift

theorem Orderly.bind (first : Orderly targets script) (second : ∀ value, Orderly targets (next value)) :
    Orderly targets (script >>= next) :=
  ⟨first.accepted.bind fun value => (second value).accepted,
    first.clean.bind fun value => (second value).clean⟩

theorem orderly_lift_bind {value : Except LifecycleError α}
    (second : ∀ result, value = .ok result → Orderly targets (next result)) :
    Orderly targets (Script.lift value >>= next) :=
  ⟨Script.always_lift_bind fun result computed => (second result computed).accepted,
    Script.keeps_lift_bind fun result computed => (second result computed).clean⟩

theorem Orderly.settle (orderly : Orderly targets script) :
    Orderly targets (script.settle : BackupScript (Except LifecycleError α)) :=
  ⟨orderly.accepted.settle, orderly.clean.settle⟩

theorem orderly_uninstall {target : Text} (targeted : targets target) :
    Orderly targets (Script.tryPerform (.uninstall target)) := by
  have touches {names : Text → Prop} : (Script.tryPerform (.uninstall target) :
      BackupScript Unit).Always (BackupEffect.Touches names targets) :=
    Script.always_tryPerform.mpr (touches_uninstall.mpr targeted)
  exact ⟨touches, touches.keeps (fun _ _ => trivial) BackupRoot.Staged.apply⟩

end Orderly

/-! ## The operations but a revocation are orderly -/

section Operations

variable (host : BackupHost) (choices : BackupChoices) {backupId : Text} {targets : Text → Prop}

theorem temporaryPath_eq_ok {random : NameRandom} {suffix path : Text}
    (computed : temporaryPath backupId random suffix = .ok path) :
    validOpaqueId "bkp_".toList backupId = true ∧ path = temporaryName backupId random suffix := by
  obtain ⟨_, checked, computed⟩ := bind_eq_ok.mp computed
  obtain ⟨_, _, computed⟩ := bind_eq_ok.mp computed
  cases computed
  exact ⟨checkOpaqueId_eq_ok.mp checked, rfl⟩

/-- The names of a kind which is not a revocation are accepted. -/
theorem accepted_staging (kind : StagingKind) (plain : kind ≠ .revocation)
    (valid : validOpaqueId "bkp_".toList backupId = true) (random : NameRandom) :
    isExactBackupStagingName (stagingName kind backupId random) = true :=
  (names_accepted (.file valid random)).mpr plain

theorem accepted_beside {kind : StagingKind} (database : kind.isDatabase = true)
    (valid : validOpaqueId "bkp_".toList backupId = true) (random : NameRandom)
    (sidecar : Sidecar) :
    isExactBackupStagingName (stagingName kind backupId random ++ sidecar.suffix) = true := by
  refine (names_accepted (.beside valid random database sidecar)).mpr ?_
  rintro rfl
  cases database

/-- A copy is written, used and removed. -/
theorem orderly_copy {kind : StagingKind} (copies : kind = .verify ∨ kind = .restore)
    (valid : validOpaqueId "bkp_".toList backupId = true) {random : NameRandom} {bytes : Octets}
    {changes : List SidecarChange} {result : Except LifecycleError α} {next : α → BackupScript γ}
    (second : ∀ value, Orderly targets (next value)) :
    Orderly targets (do
      writeNewSafeFile (stagingName kind backupId random) bytes
      sqliteActivity (stagingName kind backupId random) changes
      let value ← finishSensitiveTemporary (stagingName kind backupId random) result
      next value) := by
  have database : kind.isDatabase = true := by rcases copies with rfl | rfl <;> rfl
  have plain : kind ≠ .revocation := by rcases copies with rfl | rfl <;> nofun
  have copy : StagingKind.verify.Names (stagingName kind backupId random) ∨
      StagingKind.restore.Names (stagingName kind backupId random) := by
    rcases copies with rfl | rfl
    · exact .inl (.file valid random)
    · exact .inr (.file valid random)
  constructor
  · exact (always_writeNewSafeFile (accepted_staging kind plain valid random)).bind fun _ =>
      (always_sqliteActivity (accepted_beside database valid random) changes).bind fun _ =>
        always_finishSensitiveTemporary.bind fun value => (second value).accepted
  · intro root clean
    refine Script.holds_bind.mpr ((holds_writeNewSafeFile copy clean).imp (fun _ _ _ => trivial) ?_)
    intro written middle left
    cases written with
    | error error => exact left
    | ok _ =>
        refine Script.holds_bind.mpr ((holds_sqliteActivity left changes).imp
          (fun _ _ _ => trivial) ?_)
        rintro _ final ⟨rfl, left⟩
        refine Script.holds_bind.mpr ((holds_finishSensitiveTemporary database valid left).imp
          (fun _ _ _ => trivial) ?_)
        intro finished last clean
        cases finished with
        | ok value => exact (second value).clean last clean
        | error error => exact clean

theorem orderly_verifySqliteSnapshotBytes (valid : validOpaqueId "bkp_".toList backupId = true)
    {bytes : Octets} {workspace : WorkspaceInstanceId} {keyEpoch : UInt64} {schemaVersion : Int64} :
    Orderly targets (host.verifySqliteSnapshotBytes choices bytes workspace keyEpoch schemaVersion
      backupId) := by
  rw [BackupHost.verifySqliteSnapshotBytes, verifyName_eq]
  exact orderly_lift.bind fun _ => orderly_refuse.bind fun _ =>
    orderly_copy (.inl rfl) valid fun _ => orderly_pure

/-- A coherent copy of a database is made, read and removed. -/
theorem orderly_snapshotBytes {database : PrivacyDatabase} {maximum : Nat} :
    Orderly targets (host.snapshotBytes choices database backupId maximum) := by
  refine orderly_lift_bind fun path computed => ?_
  obtain ⟨valid, rfl⟩ := temporaryPath_eq_ok computed
  rw [temporaryName_sqlite]
  have creates {names : Text → Prop} (here : names (stagingName .snapshot backupId
      choices.snapshotRandom)) (beside : ∀ sidecar : Sidecar, names (stagingName .snapshot backupId
        choices.snapshotRandom ++ sidecar.suffix)) :
      (host.snapshotDatabase choices database (stagingName .snapshot backupId
        choices.snapshotRandom)).Always (BackupEffect.Touches names targets) :=
    Script.always_current.bind fun _ => Script.always_refuse.bind fun _ =>
      (Script.always_perform.mpr (touches_create.mpr here)).bind fun _ =>
        (always_sqliteActivity beside _).bind fun _ => Script.always_lift.bind fun _ =>
          (Script.always_perform.mpr (touches_write.mpr here)).bind fun _ =>
            always_sqliteActivity beside _
  constructor
  · exact (creates (accepted_staging .snapshot nofun valid _) (accepted_beside rfl valid _)).settle.bind
      fun _ => Script.always_current.bind fun _ => always_finishSensitiveTemporary
  · intro root clean
    have keeps : KeepsRoot (BackupRoot.CleanBut (stagingName .snapshot backupId
        choices.snapshotRandom)) _ :=
      (creates (fun _ => .inl rfl) (fun sidecar _ => .inr ⟨sidecar, rfl⟩)).keeps
        (fun _ _ => trivial) BackupRoot.Staged.apply
    refine Script.holds_bind.mpr (Script.holds_settle.mpr ((keeps root (clean.cleanBut _)).imp
      (fun _ _ _ => trivial) ?_))
    intro copied final left
    exact Script.holds_bind.mpr (Script.holds_current.mpr
      (holds_finishSensitiveTemporary rfl valid left))

/-- An atomic write is orderly. -/
theorem orderly_writeAtomicNewFile (valid : validOpaqueId "bkp_".toList backupId = true)
    {target : Text} {bytes : Octets} {random : NameRandom} (targeted : targets target) :
    Orderly targets (writeAtomicNewFile target bytes backupId random) := by
  have named := writeName_eq backupId random
  constructor
  · refine always_writeAtomicNewFile ?_ targeted
    rw [named]
    exact accepted_staging .write nofun valid random
  · have hidden : (writeAtomicNewFile target bytes backupId random).Always
        (BackupEffect.Touches (fun name => ¬ Plaintext name) targets) := by
      refine always_writeAtomicNewFile ?_ targeted
      rw [named]
      exact not_plaintext (.file valid random) rfl
    exact hidden.keeps (fun _ _ => trivial) BackupRoot.Staged.apply

theorem orderly_writeNewBackupState {state : ProtectedBackupState}
    (targeted : targets (backupStateName state.backupId)) :
    Orderly targets (host.writeNewBackupState choices state) :=
  orderly_lift.bind fun _ => orderly_refuse.bind fun _ => orderly_lift_bind fun _ checked =>
    orderly_writeAtomicNewFile (checkOpaqueId_eq_ok.mp checked) targeted

theorem orderly_loadBackupState : Orderly targets (host.loadBackupState backupId) :=
  orderly_lift.bind fun _ => orderly_current.bind fun _ => orderly_lift.bind fun _ =>
    orderly_lift.bind fun _ => orderly_refuse.bind fun _ => orderly_pure

/-- A row is inserted, or what was installed for it is taken away. -/
theorem orderly_insertRow {database : PrivacyDatabase} {verified : VerifiedBackup} {backupId : Text}
    (envelope : targets (backupName backupId)) (state : targets (backupStateName backupId)) :
    Orderly targets (do
      match ← Script.lift (BackupHost.insertRow choices database verified) with
      | some inserted => pure (verified, inserted)
      | none => do
          Script.tryPerform (.uninstall (backupName backupId))
          Script.tryPerform (.uninstall (backupStateName backupId))
          Script.throw .conflict : BackupScript (VerifiedBackup × PrivacyDatabase)) := by
  refine orderly_lift.bind fun inserted => ?_
  cases inserted with
  | some _ => exact orderly_pure
  | none =>
      exact (orderly_uninstall envelope).bind fun _ => (orderly_uninstall state).bind fun _ =>
        orderly_throw

theorem orderly_exportDatabase {database : PrivacyDatabase} {workspace : WorkspaceInstanceId}
    {request : BackupExportRequest} {expectation : BackupSchemaExpectation}
    (envelope : targets (backupName request.backupId))
    (state : targets (backupStateName request.backupId)) :
    Orderly targets (host.exportDatabaseWithSchemaExpectation choices database workspace request
      expectation) := by
  refine orderly_lift.bind fun _ => orderly_lift_bind fun _ checked => ?_
  have valid := checkOpaqueId_eq_ok.mp checked
  refine orderly_refuse.bind fun _ => orderly_lift.bind fun _ => orderly_lift.bind fun _ =>
    orderly_lift.bind fun _ => orderly_lift.bind fun _ => orderly_lift.bind fun _ =>
    orderly_lift.bind fun _ => orderly_lift.bind fun _ => ?_
  refine (orderly_snapshotBytes host choices).bind fun _ =>
    (orderly_verifySqliteSnapshotBytes host choices valid).bind fun _ =>
    orderly_lift.bind fun _ => orderly_lift.bind fun _ => orderly_refuse.bind fun _ =>
    (orderly_writeAtomicNewFile valid envelope).bind fun _ => ?_
  refine (orderly_writeNewBackupState host choices state).settle.bind fun written => ?_
  cases written with
  | ok _ => exact orderly_insertRow choices envelope state
  | error _ => exact (orderly_uninstall envelope).bind fun _ => orderly_throw

theorem orderly_decryptAndVerify {registry : BackupRegistry}
    {context : BackupVerificationExpectation} :
    Orderly targets (host.decryptAndVerify choices registry backupId context) := by
  refine orderly_lift_bind fun _ checked => ?_
  refine orderly_refuse.bind fun _ => orderly_lift.bind fun _ => orderly_lift.bind fun _ =>
    orderly_refuse.bind fun _ => orderly_refuse.bind fun _ => orderly_refuse.bind fun _ =>
    orderly_refuse.bind fun _ => orderly_current.bind fun _ => orderly_lift.bind fun _ =>
    orderly_lift.bind fun (_, _) => ?_
  exact (orderly_verifySqliteSnapshotBytes host choices (checkOpaqueId_eq_ok.mp checked)).bind
    fun _ => orderly_pure

theorem orderly_verifyBackup {registry : BackupRegistry} {context : BackupVerificationExpectation} :
    Orderly targets (host.verifyBackup choices registry backupId context) :=
  (orderly_decryptAndVerify host choices).bind fun (_, _) => orderly_pure

theorem orderly_restoreIntoEmptyDatabase {registry : BackupRegistry}
    {destination : Option PrivacyDatabase} {context : BackupVerificationExpectation} :
    Orderly targets (host.restoreIntoEmptyDatabase choices registry destination backupId context) := by
  refine orderly_refuse.bind fun _ => (orderly_decryptAndVerify host choices).bind fun (_, _) => ?_
  refine orderly_lift_bind fun path computed => ?_
  obtain ⟨valid, rfl⟩ := temporaryPath_eq_ok computed
  rw [temporaryName_restore]
  exact orderly_copy (.inr rfl) valid fun _ => orderly_pure

theorem orderly_verifyDetachedBackup {context : BackupVerificationExpectation} :
    Orderly targets (host.verifyDetachedBackup choices backupId context) :=
  (orderly_loadBackupState host).bind fun _ => orderly_lift.bind fun _ =>
    orderly_verifyBackup host choices

theorem orderly_restoreDetachedIntoEmptyDatabase {destination : Option PrivacyDatabase}
    {context : BackupVerificationExpectation} :
    Orderly targets (host.restoreDetachedIntoEmptyDatabase choices destination backupId context) :=
  (orderly_loadBackupState host).bind fun _ => orderly_lift.bind fun _ =>
    orderly_restoreIntoEmptyDatabase host choices

theorem orderly_exportPortableBundle {context : BackupVerificationExpectation} :
    Orderly targets (host.exportPortableBundle choices backupId context) :=
  (orderly_verifyDetachedBackup host choices).bind fun _ =>
    orderly_lift.bind fun _ => orderly_lift.bind fun _ => orderly_lift.bind fun _ =>
    orderly_current.bind fun _ => orderly_lift.bind fun _ => orderly_lift.bind fun _ =>
    orderly_refuse.bind fun _ => orderly_lift.bind fun _ => orderly_refuse.bind fun _ =>
    orderly_pure

/-- What is decoded of a bundle: the parts of its record, with the state which they are checked
against. -/
theorem decodePortableBundle_eq_ok {bundle : Octets} {context : BackupVerificationContext}
    {decoded : BackupHost.DecodedPortableBackupBundle}
    (computed : host.decodePortableBundle bundle context = .ok decoded) :
    ∃ (parts : PortableBackupBundle) (state : ProtectedBackupState),
      BackupHost.readRecord PortableBackupBundle.codec bundle = .ok parts ∧
      validOpaqueId "bkp_".toList parts.backupId = true ∧ decoded.backupId = parts.backupId ∧
      decodeBoundedBase64 parts.envelopeBase64 maxBackupEnvelopeBytes = .ok decoded.envelope ∧
      decodeBoundedBase64 parts.protectedStateBase64 maxProtectedBackupStateBytes =
        .ok decoded.protectedState ∧
      (host.sha256Hex decoded.envelope).1 = parts.envelopeSha256 ∧
      host.unprotectState decoded.protectedState = .ok state ∧
      state.backupId = parts.backupId ∧ state.envelopeSha256 = parts.envelopeSha256 ∧
      state.state = activeState := by
  obtain ⟨_, _, computed⟩ := bind_eq_ok.mp computed
  obtain ⟨parts, read, computed⟩ := bind_eq_ok.mp computed
  obtain ⟨_, checked, computed⟩ := bind_eq_ok.mp computed
  obtain ⟨_, _, computed⟩ := bind_eq_ok.mp computed
  obtain ⟨_, _, computed⟩ := bind_eq_ok.mp computed
  obtain ⟨_, _, computed⟩ := bind_eq_ok.mp computed
  obtain ⟨envelope, decodedEnvelope, computed⟩ := bind_eq_ok.mp computed
  obtain ⟨blob, decodedState, computed⟩ := bind_eq_ok.mp computed
  obtain ⟨metadata, _, computed⟩ := bind_eq_ok.mp computed
  dsimp only at computed
  -- The limits of the schema refuse a bundle, or do not matter for what it is.
  have last : (do
      refuseIf (envelope = [] ∨ blob = [] ∨ (host.sha256Hex envelope).1 ≠ parts.envelopeSha256 ∨
        (host.sha256Hex blob).1 ≠ parts.protectedStateSha256) LifecycleError.backupTampered
      let state ← host.unprotectState blob
      refuseIf (state.backupId ≠ parts.backupId ∨
        state.workspaceInstanceId ≠ context.expectedWorkspaceInstanceId ∨
        state.keyEpoch ≠ context.expectedKeyEpoch ∨
        state.envelopeSha256 ≠ parts.envelopeSha256 ∨ state.state ≠ activeState ∨
        state.revokedAtUnix.isSome = true ∨ context.nowUnix < state.createdAtUnix ∨
        state.expiresAtUnix ≤ context.nowUnix) .environmentMismatch
      pure (⟨parts.backupId, envelope, blob⟩ : BackupHost.DecodedPortableBackupBundle)) =
        .ok decoded := by
    split at computed
    · exact (bind_eq_ok.mp computed).choose_spec.2
    · exact computed
  obtain ⟨_, hashed, last⟩ := bind_eq_ok.mp last
  obtain ⟨state, unprotected, last⟩ := bind_eq_ok.mp last
  obtain ⟨_, matching, last⟩ := bind_eq_ok.mp last
  cases last
  have hashed := refuseIf_eq_ok.mp hashed
  have matching := refuseIf_eq_ok.mp matching
  simp only [not_or, not_not] at hashed matching
  exact ⟨parts, state, read, checkOpaqueId_eq_ok.mp checked, rfl, decodedEnvelope, decodedState,
    hashed.2.2.1, unprotected, matching.1, matching.2.2.2.1, matching.2.2.2.2.1⟩

theorem decodePortableBundle_valid {bundle : Octets} {context : BackupVerificationContext}
    {decoded : BackupHost.DecodedPortableBackupBundle}
    (computed : host.decodePortableBundle bundle context = .ok decoded) :
    validOpaqueId "bkp_".toList decoded.backupId = true := by
  obtain ⟨_, _, _, valid, same, _⟩ := decodePortableBundle_eq_ok host computed
  rw [same]
  exact valid

theorem orderly_installBundle {decoded : BackupHost.DecodedPortableBackupBundle}
    (valid : validOpaqueId "bkp_".toList decoded.backupId = true)
    (envelope : targets (backupName decoded.backupId))
    (state : targets (backupStateName decoded.backupId)) :
    Orderly targets (BackupHost.installBundle choices decoded) := by
  refine (orderly_writeAtomicNewFile valid envelope).bind fun _ =>
    (orderly_writeAtomicNewFile valid state).settle.bind fun written => ?_
  cases written with
  | ok _ => exact orderly_pure
  | error _ => exact (orderly_uninstall envelope).bind fun _ => orderly_throw

theorem orderly_verifyInstalled {installedNew : Bool} {context : BackupVerificationExpectation}
    (envelope : targets (backupName backupId)) (state : targets (backupStateName backupId)) :
    Orderly targets (host.verifyInstalled choices installedNew backupId context) := by
  refine (orderly_verifyDetachedBackup host choices).settle.bind fun verified => ?_
  cases verified with
  | ok _ => exact orderly_pure
  | error _ =>
      cases installedNew with
      | true =>
          exact (orderly_uninstall envelope).bind fun _ => (orderly_uninstall state).bind fun _ =>
            orderly_throw
      | false => exact orderly_pure.bind fun _ => orderly_throw

theorem orderly_importPortableBundle {bundle : Octets} {context : BackupVerificationContext} :
    Orderly (fun _ => True) (host.importPortableBundle choices bundle context) :=
  orderly_lift_bind fun _ computed =>
    (orderly_installBundle choices (decodePortableBundle_valid host computed) trivial
      trivial).bind fun _ => orderly_verifyInstalled host choices trivial trivial

theorem orderly_importPortableBundleForRollback {bundle : Octets}
    {context : BackupVerificationContext} :
    Orderly (fun _ => True) (host.importPortableBundleForRollback choices bundle context) := by
  refine orderly_lift_bind fun decoded computed => orderly_lift.bind fun _ =>
    orderly_lift.bind fun _ => orderly_current.bind fun root => ?_
  rcases root.backups.lookup (backupName decoded.backupId) with _ | envelope
  · rcases root.backups.lookup (backupStateName decoded.backupId) with _ | blob
    · exact (orderly_installBundle choices (decodePortableBundle_valid host computed) trivial
        trivial).bind fun _ => orderly_verifyInstalled host choices trivial trivial
    · exact orderly_throw
  · rcases root.backups.lookup (backupStateName decoded.backupId) with _ | blob
    · exact orderly_throw
    · exact orderly_lift.bind fun _ => orderly_lift.bind fun _ => orderly_refuse.bind fun _ =>
        orderly_verifyInstalled host choices trivial trivial

/-- Every operation but a revocation is orderly. -/
theorem orderly_script {operation : BackupOperation} (plain : operation.isRevocation = false) :
    Orderly (fun _ => True) (operation.script host choices) := by
  cases operation with
  | exportDatabase => exact (orderly_exportDatabase host choices trivial trivial).bind fun _ => orderly_pure
  | verify => exact (orderly_verifyBackup host choices).bind fun _ => orderly_pure
  | restore => exact (orderly_restoreIntoEmptyDatabase host choices).bind fun _ => orderly_pure
  | verifyDetached => exact (orderly_verifyDetachedBackup host choices).bind fun _ => orderly_pure
  | restoreDetached =>
      exact (orderly_restoreDetachedIntoEmptyDatabase host choices).bind fun _ => orderly_pure
  | revoke => cases plain
  | exportBundle => exact (orderly_exportPortableBundle host choices).bind fun _ => orderly_pure
  | importBundle => exact (orderly_importPortableBundle host choices).bind fun _ => orderly_pure
  | importBundleForRollback =>
      exact (orderly_importPortableBundleForRollback host choices).bind fun _ => orderly_pure

end Operations

/-! ## Revocations -/

/-- The answers to a revocation which is not cut short behind the creation of its file, and whose
file is written, and moved or removed. -/
def Undisturbed : List Bool → Prop
  | [] | false :: _ | true :: true :: true :: _ | true :: true :: false :: true :: _ => True
  | [true] | true :: false :: _ | [true, true] | [true, true, false] |
    true :: true :: false :: false :: _ => False

section Revocation

variable (host : BackupHost) (choices : BackupChoices) {backupId : Text}

theorem quiet_loadBackupState : (host.loadBackupState backupId).Always fun _ => False :=
  Script.always_lift.bind fun _ => Script.always_current.bind fun _ => Script.always_lift.bind
    fun _ => Script.always_lift.bind fun _ => Script.always_refuse.bind fun _ => Script.always_pure

/-- A temporary file which is there is removed when its removal succeeds. -/
theorem run_removeSafeTemporary {root : BackupRoot} {name : Text} {rest : List Bool}
    (present : name ∈ root.staging) :
    ((removeSafeTemporary name).run BackupRoot.apply root (true :: rest)).state =
      root.apply (.remove name) := by
  rw [removeSafeTemporary, Script.run_current_bind, if_pos present]
  rfl

theorem run_check {root : BackupRoot} {target : Text} {error : LifecycleError}
    {answers : List Bool} : ((Script.perform (.check target) error : BackupScript Unit).run
      BackupRoot.apply root answers).state = root := by
  match answers with
  | [] => rfl
  | true :: _ => rfl
  | false :: _ => rfl

/-- The file of a revocation is created, written, and moved or removed. -/
theorem replace_staging {root : BackupRoot} {answers : List Bool} (undisturbed : Undisturbed answers)
    (temporary target : Text) (blob : Octets) {name : Text}
    (among : name ∈ ((do
      writeNewSafeFile temporary blob
      match ← Script.settle (Script.perform (.install temporary target) ()) with
      | .ok () => Script.perform (.check target) .unsafeFilesystem
      | .error () => do
          let _ ← Script.settle (δ := LifecycleError) (removeSafeTemporary temporary)
          Script.throw .io : BackupScript Unit).run BackupRoot.apply root answers).state.staging) :
    name ∈ root.staging := by
  rw [writeNewSafeFile, Script.bind_assoc, Script.run_current_bind, Script.bind_assoc,
    Script.run_refuse_bind] at among
  split_ifs at among with occupied
  · exact among
  rw [Script.bind_assoc, Script.run_perform_bind] at among
  have removed (among : name ∈ ((root.staging.insert temporary []).insert temporary blob).erase
      temporary) : name ∈ root.staging := by
    obtain ⟨different, among⟩ := AList.mem_erase.mp among
    have among := ((AList.mem_insert _).mp among).resolve_left different
    exact ((AList.mem_insert _).mp among).resolve_left different
  have found : ((root.staging.insert temporary []).insert temporary blob).lookup temporary =
      some blob := AList.lookup_insert _
  have present : temporary ∈ (root.staging.insert temporary []).insert temporary blob :=
    (AList.mem_insert _).mpr (.inl rfl)
  match answers with
  | [] => exact among
  | false :: _ => exact among
  | true :: true :: true :: rest =>
      dsimp only at among
      rw [Script.run_perform_bind] at among
      dsimp only at among
      rw [Script.run_settle_perform_bind] at among
      simp only [BackupRoot.apply, found, run_check] at among
      exact removed among
  | true :: true :: false :: true :: rest =>
      dsimp only at among
      rw [Script.run_perform_bind] at among
      dsimp only at among
      rw [Script.run_settle_perform_bind] at among
      dsimp only at among
      rw [Script.run_bind_quiet_state (fun _ => Script.always_throw), Script.run_settle_state,
        run_removeSafeTemporary present] at among
      exact removed among

/-- A revocation which is not disturbed leaves no new file in `.staging`. -/
theorem revokeBackup_staging {root : BackupRoot} {answers : List Bool}
    (undisturbed : Undisturbed answers) {registry : BackupRegistry} {revokedAtUnix : UInt64}
    {name : Text}
    (among : name ∈ (((BackupOperation.revoke registry backupId revokedAtUnix).script host
      choices).run BackupRoot.apply root answers).state.staging) : name ∈ root.staging := by
  rw [BackupOperation.script, Script.run_bind_quiet_state (fun _ => Script.always_pure),
    BackupHost.revokeBackup, Script.run_lift_bind] at among
  split at among
  · rw [Script.run_refuse_bind] at among
    split_ifs at among
    · exact among
    rw [Script.run_bind_quiet_state (fun _ => Script.always_lift), BackupHost.revokeBackupState,
      Script.run_quiet_bind (quiet_loadBackupState host)] at among
    split at among
    · rw [Script.run_refuse_bind] at among
      split_ifs at among
      · exact among
      · rw [Script.run_refuse_bind] at among
        split_ifs at among
        · exact among
        rw [Script.run_lift_bind] at among
        split at among
        · rw [Script.run_lift_bind] at among
          split at among
          · exact replace_staging undisturbed _ _ _ among
          · exact among
        · exact among
    · exact among
  · exact among

end Revocation

end LawyerAssistance.Backups

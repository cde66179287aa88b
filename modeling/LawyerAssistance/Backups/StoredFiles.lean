import LawyerAssistance.Backups.Records
import LawyerAssistance.Backups.StagingRecovery

/-!
# The files of a backup

A file of `backups` which is there is kept by every operation but a revocation of its backup,
wherever the operation is interrupted: an operation installs a file only where none is, and removes
only files which it installed.
-/

namespace LawyerAssistance.Backups

open Privacy Lifecycle

/-! ## What is kept -/

/-- A file of `backups` with its contents. -/
def BackupRoot.Stores (name : Text) (bytes : Octets) (root : BackupRoot) : Prop :=
  root.backups.lookup name = some bytes

variable {name : Text} {bytes : Octets} {root : BackupRoot}

theorem BackupRoot.Stores.mem (stores : root.Stores name bytes) : name ∈ root.backups :=
  AList.lookup_isSome.mp (Option.isSome_iff_exists.mpr ⟨bytes, stores⟩)

/-- An effect which touches other files of `backups` keeps a file. -/
theorem BackupRoot.Stores.apply {names targets : Text → Prop} {effect : BackupEffect}
    (stores : root.Stores name bytes) (touches : effect.Touches names targets)
    (apart : ¬ targets name) : (root.apply effect).Stores name bytes := by
  cases effect with
  | create created => exact stores
  | write written contents => exact stores
  | remove removed => exact stores
  | check checked => exact stores
  | install moved target =>
      have different : name ≠ target := by
        rintro rfl
        exact apart touches
      rw [BackupRoot.apply]
      split
      · exact (AList.lookup_insert_ne different).trans stores
      · exact stores
  | uninstall target =>
      have different : name ≠ target := by
        rintro rfl
        exact apart touches
      exact (AList.lookup_erase_ne different).trans stores

/-- A script which maintains a file. -/
structure KeepsFile {α : Type} (name : Text) (bytes : Octets) (script : BackupScript α) : Prop where
  maintains : script.Maintains BackupRoot.apply (BackupRoot.Stores name bytes)

section KeepsFile

variable {α γ : Type} {targets : Text → Prop} {script : BackupScript α}
  {next : α → BackupScript γ}

theorem Orderly.keepsFile (orderly : Orderly targets script) (apart : ¬ targets name) :
    KeepsFile name bytes script :=
  ⟨orderly.accepted.maintains fun stores touches => stores.apply touches apart⟩

theorem keepsFile_pure {value : α} : KeepsFile name bytes (pure value : BackupScript α) :=
  ⟨Script.keeps_pure⟩

theorem keepsFile_throw {error : LifecycleError} :
    KeepsFile name bytes (Script.throw error : BackupScript α) :=
  ⟨Script.keeps_throw⟩

theorem keepsFile_current : KeepsFile name bytes (Script.current : BackupScript BackupRoot) :=
  ⟨Script.keeps_current⟩

theorem keepsFile_lift {value : Except LifecycleError α} :
    KeepsFile name bytes (Script.lift value) :=
  ⟨Script.keeps_lift⟩

theorem keepsFile_refuse {condition : Prop} [Decidable condition] {error : LifecycleError} :
    KeepsFile name bytes (Script.refuse condition error) :=
  keepsFile_lift

theorem KeepsFile.bind (first : KeepsFile name bytes script)
    (second : ∀ value, KeepsFile name bytes (next value)) : KeepsFile name bytes (script >>= next) :=
  ⟨first.maintains.bind fun value => (second value).maintains⟩

theorem keepsFile_lift_bind {value : Except LifecycleError α}
    (second : ∀ result, value = .ok result → KeepsFile name bytes (next result)) :
    KeepsFile name bytes (Script.lift value >>= next) :=
  ⟨Script.keeps_lift_bind fun result computed => (second result computed).maintains⟩

theorem KeepsFile.settle (keeps : KeepsFile name bytes script) :
    KeepsFile name bytes (script.settle : BackupScript (Except LifecycleError α)) :=
  ⟨keeps.maintains.settle⟩

end KeepsFile

theorem backupName_ne_backupStateName (first second : Text) :
    backupName first ≠ backupStateName second := by
  intro same
  have ends := congrArg (fun text => text.getLast?) same
  rw [backupName, backupStateName, List.getLast?_append, List.getLast?_append] at ends
  have letters : some 'p' = some 'i' := ends
  exact absurd letters (by decide)

theorem backupStateName_injective {first second : Text}
    (same : backupStateName first = backupStateName second) : first = second :=
  List.append_cancel_right same

/-! ## Files which are installed -/

/-- A script which maintains a file and, when it ends with a value, installed another one. -/
def Installs {α : Type} (target name : Text) (bytes : Octets) (script : BackupScript α) : Prop :=
  ∀ root : BackupRoot, root.Stores name bytes →
    script.Holds BackupRoot.apply (fun _ => True)
      (fun state effect => (state.apply effect).Stores name bytes)
      (fun result final => final.Stores name bytes ∧ ∀ value, result = .ok value → target ≠ name) root

section Installs

variable {α γ : Type} {target : Text} {script : BackupScript α} {next : α → BackupScript γ}

/-- An atomic write installs its file. -/
theorem installs_writeAtomicNewFile {backupId : Text} {contents : Octets} {random : NameRandom}
    (valid : validOpaqueId "bkp_".toList backupId = true) :
    Installs target name bytes (writeAtomicNewFile target contents backupId random) := by
  intro root stores
  by_cases same : target = name
  · refine Script.holds_bind.mpr (Script.holds_current.mpr (Script.holds_bind.mpr ?_))
    refine Script.holds_refuse.mpr ⟨fun _ => ⟨stores, nofun⟩, fun new => ?_⟩
    rw [same] at new
    exact absurd stores.mem new
  · have orderly : Orderly (fun other => other = target)
        (writeAtomicNewFile target contents backupId random) :=
      orderly_writeAtomicNewFile valid rfl
    have keeps : KeepsFile name bytes (writeAtomicNewFile target contents backupId random) :=
      orderly.keepsFile (Ne.symm same)
    exact (keeps.maintains root stores).imp (fun _ _ kept => kept) fun _ _ kept => ⟨kept, fun _ _ => same⟩

theorem installs_lift_bind {γ : Type} {value : Except LifecycleError α} {next : α → BackupScript γ}
    (second : ∀ result, value = .ok result → Installs target name bytes (next result)) :
    Installs target name bytes (Script.lift value >>= next) := by
  cases value with
  | ok result => exact second result rfl
  | error error => exact fun _ stores => ⟨stores, nofun⟩

theorem installs_refuse_bind {condition : Prop} [Decidable condition] {error : LifecycleError}
    {next : Unit → BackupScript γ} (second : Installs target name bytes (next ())) :
    Installs target name bytes (Script.refuse condition error >>= next) :=
  installs_lift_bind fun _ _ => second

/-- What is behind an installation knows that it was of another file. -/
theorem Installs.bind (installs : Installs target name bytes script)
    (second : target ≠ name → ∀ value, KeepsFile name bytes (next value)) :
    KeepsFile name bytes (script >>= next) :=
  ⟨fun root stores => (installs root stores).bind
    (fun value final ends => (second (ends.2 value rfl) value).maintains final ends.1)
    fun _ _ ends => ends.1⟩

/-- What is behind an installation which may have failed knows that it was of another file when it
did not. -/
theorem Installs.settle_bind {γ : Type} {next : Except LifecycleError α → BackupScript γ}
    (installs : Installs target name bytes script)
    (succeeds : target ≠ name → ∀ value, KeepsFile name bytes (next (.ok value)))
    (fails : ∀ error, KeepsFile name bytes (next (.error error))) :
    KeepsFile name bytes (Script.settle script >>= next) := by
  refine ⟨fun root stores => ?_⟩
  refine Script.holds_bind.mpr (Script.holds_settle.mpr ((installs root stores).imp
    (fun _ _ kept => kept) ?_))
  intro result final ends
  cases result with
  | ok value => exact (succeeds (ends.2 value rfl) value).maintains final ends.1
  | error error => exact (fails error).maintains final ends.1

theorem keepsFile_uninstall (apart : target ≠ name) :
    KeepsFile name bytes (Script.tryPerform (.uninstall target)) := by
  have orderly : Orderly (fun other => other = target) (Script.tryPerform (.uninstall target)) :=
    orderly_uninstall rfl
  exact orderly.keepsFile (Ne.symm apart)

end Installs

/-! ## The operations but a revocation -/

section Operations

variable (host : BackupHost) (choices : BackupChoices) {backupId : Text}

/-- A script which touches no file of `backups` maintains each of them. -/
theorem Orderly.keepsEveryFile {α : Type} {script : BackupScript α}
    (orderly : Orderly (fun _ => False) script) : KeepsFile name bytes script :=
  orderly.keepsFile id

theorem installs_writeNewBackupState {state : ProtectedBackupState} {target : Text}
    (named : backupStateName state.backupId = target) :
    Installs target name bytes (host.writeNewBackupState choices state) := by
  rw [← named]
  exact installs_lift_bind fun _ _ => installs_refuse_bind <| installs_lift_bind fun _ checked =>
    installs_writeAtomicNewFile (checkOpaqueId_eq_ok.mp checked)

theorem installs_writeInitialBackupState {verified : VerifiedBackup} :
    Installs (backupStateName verified.backupId) name bytes
      (host.writeInitialBackupState choices verified) := by
  rw [BackupHost.writeInitialBackupState]
  exact installs_writeNewBackupState host choices rfl

theorem keepsFile_exportDatabase {database : PrivacyDatabase} {workspace : WorkspaceInstanceId}
    {request : BackupExportRequest} {expectation : BackupSchemaExpectation} :
    KeepsFile name bytes (host.exportDatabaseWithSchemaExpectation choices database workspace
      request expectation) := by
  refine keepsFile_lift.bind fun _ => keepsFile_lift_bind fun _ checked => ?_
  have valid := checkOpaqueId_eq_ok.mp checked
  refine keepsFile_refuse.bind fun _ => keepsFile_lift.bind fun _ =>
    keepsFile_lift.bind fun _ => keepsFile_lift.bind fun _ => keepsFile_lift.bind fun _ =>
    keepsFile_lift.bind fun _ => keepsFile_lift.bind fun _ => keepsFile_lift.bind fun _ => ?_
  refine (orderly_snapshotBytes host choices).keepsEveryFile.bind fun _ =>
    (orderly_verifySqliteSnapshotBytes host choices valid).keepsEveryFile.bind fun _ =>
    keepsFile_lift.bind fun _ => keepsFile_lift.bind fun _ => keepsFile_refuse.bind fun _ => ?_
  refine (installs_writeAtomicNewFile valid).bind fun envelope _ => ?_
  refine Installs.settle_bind (installs_writeInitialBackupState host choices)
    (fun state _ => ?_) fun error => ?_
  · refine keepsFile_lift.bind fun inserted => ?_
    cases inserted with
    | some _ => exact keepsFile_pure
    | none =>
        exact (keepsFile_uninstall envelope).bind fun _ => (keepsFile_uninstall state).bind fun _ =>
          keepsFile_throw
  · exact (keepsFile_uninstall envelope).bind fun _ => keepsFile_throw

theorem keepsFile_verifyInstalled {context : BackupVerificationExpectation} {installedNew : Bool}
    (envelope : installedNew = true → backupName backupId ≠ name)
    (state : installedNew = true → backupStateName backupId ≠ name) :
    KeepsFile name bytes (host.verifyInstalled choices installedNew backupId context) := by
  refine (orderly_verifyDetachedBackup host choices).keepsEveryFile.settle.bind fun verified => ?_
  cases verified with
  | ok _ => exact keepsFile_pure
  | error _ =>
      cases installedNew with
      | true =>
          exact (keepsFile_uninstall (envelope rfl)).bind fun _ =>
            (keepsFile_uninstall (state rfl)).bind fun _ => keepsFile_throw
      | false => exact keepsFile_pure.bind fun _ => keepsFile_throw

/-- A bundle is installed and verified. -/
theorem keepsFile_install {decoded : BackupHost.DecodedPortableBackupBundle}
    {context : BackupVerificationExpectation}
    (valid : validOpaqueId "bkp_".toList decoded.backupId = true) :
    KeepsFile name bytes (do
      BackupHost.installBundle choices decoded
      host.verifyInstalled choices true decoded.backupId context) := by
  rw [BackupHost.installBundle, Script.bind_assoc]
  refine (installs_writeAtomicNewFile valid).bind fun envelope _ => ?_
  rw [Script.bind_assoc]
  refine (installs_writeAtomicNewFile valid).settle_bind (fun state _ => ?_) fun error => ?_
  · exact keepsFile_pure.bind fun _ =>
      keepsFile_verifyInstalled host choices (fun _ => envelope) fun _ => state
  · rw [Script.bind_assoc]
    exact (keepsFile_uninstall envelope).bind fun _ => keepsFile_throw

theorem keepsFile_importPortableBundleForRollback {bundle : Octets}
    {context : BackupVerificationContext} :
    KeepsFile name bytes (host.importPortableBundleForRollback choices bundle context) := by
  refine keepsFile_lift_bind fun decoded computed => keepsFile_lift.bind fun _ =>
    keepsFile_lift.bind fun _ => keepsFile_current.bind fun root => ?_
  rcases root.backups.lookup (backupName decoded.backupId) with _ | envelope
  · rcases root.backups.lookup (backupStateName decoded.backupId) with _ | blob
    · exact keepsFile_install host choices (decodePortableBundle_valid host computed)
    · exact keepsFile_throw
  · rcases root.backups.lookup (backupStateName decoded.backupId) with _ | blob
    · exact keepsFile_throw
    · exact keepsFile_lift.bind fun _ => keepsFile_lift.bind fun _ =>
        keepsFile_refuse.bind fun _ => keepsFile_verifyInstalled host choices nofun nofun

/-- Every operation but a revocation maintains every file. -/
theorem keepsFile_script {operation : BackupOperation} (plain : operation.isRevocation = false) :
    KeepsFile name bytes (operation.script host choices) := by
  cases operation with
  | exportDatabase => exact (keepsFile_exportDatabase host choices).bind fun _ => keepsFile_pure
  | verify =>
      exact (orderly_verifyBackup host choices).keepsEveryFile.bind fun _ => keepsFile_pure
  | restore =>
      exact (orderly_restoreIntoEmptyDatabase host choices).keepsEveryFile.bind
        fun _ => keepsFile_pure
  | verifyDetached =>
      exact (orderly_verifyDetachedBackup host choices).keepsEveryFile.bind
        fun _ => keepsFile_pure
  | restoreDetached =>
      exact (orderly_restoreDetachedIntoEmptyDatabase host choices).keepsEveryFile.bind
        fun _ => keepsFile_pure
  | revoke => cases plain
  | exportBundle =>
      exact (orderly_exportPortableBundle host choices).keepsEveryFile.bind
        fun _ => keepsFile_pure
  | importBundle =>
      refine KeepsFile.bind (keepsFile_lift_bind fun _ computed => ?_)
        fun _ => keepsFile_pure
      exact keepsFile_install host choices (decodePortableBundle_valid host computed)
  | importBundleForRollback =>
      exact (keepsFile_importPortableBundleForRollback host choices).bind fun _ => keepsFile_pure

end Operations

end LawyerAssistance.Backups

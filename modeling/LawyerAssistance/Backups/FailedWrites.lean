import LawyerAssistance.Backups.Portable

/-!
# Operations which fail

What an export or an import which returns an error leaves in `backups`, when the files which it
removes again are removed: what was there before, unless the check of a file which it installed
failed, or the numbers of an export do not fit its row.
-/

namespace LawyerAssistance.Backups

open Privacy Lifecycle

/-- The check of a file which was installed. -/
def BackupEffect.Checks : BackupEffect → Prop
  | .check _ => True
  | _ => False

/-- The removal of a file which was installed. -/
def BackupEffect.Uninstalls : BackupEffect → Prop
  | .uninstall _ => True
  | _ => False

theorem erase_insert_of_notMem {directory : Directory} {name : Text} {bytes : Octets}
    (new : name ∉ directory) : (directory.insert name bytes).erase name = directory := by
  apply AList.ext
  change List.kerase name (directory.insert name bytes).entries = directory.entries
  rw [AList.entries_insert_of_notMem new]
  exact List.kerase_cons_eq rfl

/-- Two files which were not there are removed again, in the order in which they were written. -/
theorem erase_insert_two {directory : Directory} {first second : Text} {bytes blob : Octets}
    (apart : first ≠ second) (firstNew : first ∉ directory) (secondNew : second ∉ directory) :
    (((directory.insert first bytes).insert second blob).erase first).erase second = directory := by
  have absent : second ∉ directory.insert first bytes := by
    rw [AList.mem_insert, not_or]
    exact ⟨apart.symm, secondNew⟩
  apply AList.ext
  change List.kerase second (List.kerase first ((directory.insert first bytes).insert second
    blob).entries) = directory.entries
  rw [AList.entries_insert_of_notMem absent, AList.entries_insert_of_notMem firstNew,
    List.kerase_cons_ne apart]
  have firstLast : List.kerase first (⟨first, bytes⟩ :: directory.entries) = directory.entries :=
    List.kerase_cons_eq rfl
  rw [firstLast]
  exact List.kerase_cons_eq rfl

/-- How the write of a file ends: an error leaves the file when its check failed, and nothing
otherwise. -/
def FileEnds (root : BackupRoot) (clean : Prop) (target : Text) (bytes : Octets) :
    Except LifecycleError Unit → BackupRoot → Prop → Prop
  | .ok _, final, after => target ∉ root.backups ∧
      final.backups = root.backups.insert target bytes ∧ (after ↔ clean)
  | .error _, final, after => final.backups = root.backups ∧ (after ↔ clean) ∨
      target ∉ root.backups ∧ final.backups = root.backups.insert target bytes ∧ ¬ after

/-- How the write of the files of a backup ends. -/
def FilesEnd (root : BackupRoot) (clean : Prop) (backupId : Text) (envelope blob : Octets) :
    Except LifecycleError Unit → BackupRoot → Prop → Prop
  | .ok _, final, after => backupName backupId ∉ root.backups ∧
      backupStateName backupId ∉ root.backups ∧
      final.backups = (root.backups.insert (backupName backupId) envelope).insert
        (backupStateName backupId) blob ∧ (after ↔ clean)
  | .error _, final, after => final.backups = root.backups ∧ (after ↔ clean) ∨
      final.backups ≠ root.backups ∧ ¬ after

section Files

variable {root : BackupRoot} {clean : Prop} {target backupId : Text} {bytes : Octets}
  {random : NameRandom}

/-- A script which touches no file of `backups` leaves them, and checks nothing. -/
theorem tells_quiet {α : Type} {names : Text → Prop} {script : BackupScript α}
    (always : script.Always (BackupEffect.Touches names fun _ => False)) :
    Script.Tells BackupRoot.apply (fun effect => ¬ effect.Uninstalls) BackupEffect.Checks
      (fun _ final after => final.backups = root.backups ∧ (after ↔ clean)) script root clean := by
  have plain : ∀ {effect : BackupEffect}, effect.Touches names (fun _ => False) → ¬ effect.Checks := by
    intro effect touches checks
    cases effect with
    | check target => exact touches
    | create | write | remove | install | uninstall => exact checks
  have kept : ∀ {state : BackupRoot} {effect : BackupEffect}, state.backups = root.backups →
      effect.Touches names (fun _ => False) → (state.apply effect).backups = root.backups := by
    intro state effect same touches
    cases effect with
    | create | write | remove | check => exact same
    | install | uninstall => exact touches.elim
  exact always.tells plain kept rfl

/-- A file which is written is new, and stays when its check fails. -/
theorem tells_writeAtomicNewFile :
    Script.Tells BackupRoot.apply (fun effect => ¬ effect.Uninstalls) BackupEffect.Checks
      (FileEnds root clean target bytes)
      (writeAtomicNewFile target bytes backupId random) root clean := by
  refine Script.tells_current_bind.mpr (Script.tells_bind.mpr (Script.tells_refuse.mpr ⟨?_, ?_⟩))
  · exact fun _ => .inl ⟨rfl, Iff.rfl⟩
  intro new
  have writes : Script.Tells BackupRoot.apply (fun effect => ¬ effect.Uninstalls) BackupEffect.Checks
      (fun result final after => final.backups = root.backups ∧ (after ↔ clean) ∧
        ∀ value, result = .ok value → final.staging.lookup (writeName backupId random) = some bytes)
      (writeNewSafeFile (writeName backupId random) bytes) root clean := by
    have plain : (clean ∧ ¬ False) ↔ clean := by rw [not_false_iff, and_true]
    refine Script.tells_current_bind.mpr (Script.tells_bind.mpr (Script.tells_refuse.mpr
      ⟨fun _ => ⟨rfl, Iff.rfl, nofun⟩, fun _ => Script.tells_bind.mpr ?_⟩))
    refine Script.tells_perform.mpr ⟨?_, fun _ => ⟨rfl, plain, nofun⟩⟩
    exact Script.tells_perform.mpr ⟨⟨rfl, Iff.rfl, fun _ _ => AList.lookup_insert _⟩,
      fun _ => ⟨rfl, plain, nofun⟩⟩
  refine Script.tells_bind.mpr (writes.imp ?_)
  rintro (error | _) written after ⟨kept, same, found⟩
  · exact .inl ⟨kept, same⟩
  have moved : (written.apply (.install (writeName backupId random) target)).backups =
      root.backups.insert target bytes := by
    rw [BackupRoot.apply, found _ rfl]
    dsimp only
    rw [kept]
  refine Script.tells_bind.mpr (Script.tells_settle.mpr (Script.tells_perform.mpr ⟨?_, fun _ => ?_⟩))
  · refine Script.tells_perform.mpr ⟨⟨new, moved, same⟩, fun _ => .inr ⟨new, moved, ?_⟩⟩
    exact fun both => both.2 trivial
  · have removes : (removeSensitiveSqliteTemporary (writeName backupId random)).Always
        (BackupEffect.Touches (fun _ => True) fun _ => False) :=
      always_removeSensitiveSqliteTemporary
    refine Script.tells_bind.mpr ((tells_quiet removes).imp ?_)
    rintro (error | _) final last ⟨stays, still⟩
    · exact .inl ⟨stays.trans kept, by rw [still, same]; exact and_iff_left id⟩
    · exact .inl ⟨stays.trans kept, by rw [still, same]; exact and_iff_left id⟩

/-- Two files which are written: the state behind the envelope, which is removed when the state
fails. -/
theorem tells_files {envelope blob : Octets} {writes : BackupScript Unit}
    (states : ∀ (before : BackupRoot) (now : Prop),
      Script.Tells BackupRoot.apply (fun effect => ¬ effect.Uninstalls) BackupEffect.Checks
        (FileEnds before now (backupStateName backupId) blob)
        writes before now) :
    Script.Tells BackupRoot.apply (fun effect => ¬ effect.Uninstalls) BackupEffect.Checks
      (FilesEnd root clean backupId envelope blob)
      (do
        writeAtomicNewFile (backupName backupId) envelope backupId random
        match ← Script.settle writes with
        | .ok () => pure ()
        | .error error => do
            Script.tryPerform (.uninstall (backupName backupId))
            Script.throw error) root clean := by
  have apart := backupName_ne_backupStateName backupId backupId
  refine Script.tells_bind.mpr (tells_writeAtomicNewFile.imp ?_)
  rintro (error | _) first after told
  · obtain same | ⟨new, installed, dirty⟩ := told
    · exact .inl same
    · refine .inr ⟨fun equal => ?_, dirty⟩
      rw [installed] at equal
      exact new (equal ▸ (AList.mem_insert _).mpr (.inl rfl))
  obtain ⟨new, installed, same⟩ := told
  refine Script.tells_bind.mpr (Script.tells_settle.mpr ((states first after).imp ?_))
  rintro (error | _) second last told
  · have throws {middle : BackupRoot} {now : Prop} (told : middle.backups = root.backups ∧ (now ↔ clean) ∨
        middle.backups ≠ root.backups ∧ ¬ now) :
        Script.Tells BackupRoot.apply (fun effect => ¬ effect.Uninstalls) BackupEffect.Checks
          (FilesEnd root clean backupId envelope blob)
          (Script.throw error : BackupScript Unit) middle now := told
    refine Script.tells_bind.mpr (Script.tells_tryPerform.mpr ⟨throws ?_, fun stays => ?_⟩)
    · rw [BackupRoot.apply]
      obtain ⟨kept, still⟩ | ⟨absent, stored, dirty⟩ := told
      · refine .inl ⟨?_, still.trans same⟩
        dsimp only
        rw [kept, installed, erase_insert_of_notMem new]
      · refine .inr ⟨fun equal => absent ?_, dirty⟩
        rw [installed]
        refine (AList.mem_insert _).mpr (.inr ?_)
        rw [← equal]
        dsimp only
        rw [stored]
        exact AList.mem_erase.mpr ⟨apart.symm, (AList.mem_insert _).mpr (.inl rfl)⟩
    · exact absurd trivial stays
  · obtain ⟨absent, stored, still⟩ := told
    rw [installed, AList.mem_insert, not_or] at absent
    rw [installed] at stored
    exact ⟨new, absent.2, stored, still.trans same⟩

end Files

/-! ## Imports -/

/-- How an operation ends: an error leaves `backups` as it was exactly when no check failed. -/
def Restores {α : Type} (root : BackupRoot) : Except LifecycleError α → BackupRoot → Prop → Prop
  | .ok _, _, _ => True
  | .error _, final, after => final.backups = root.backups ↔ after

section Imports

variable (host : BackupHost) (choices : BackupChoices) {root : BackupRoot}

theorem restores_of {α : Type} {error : LifecycleError} {final : BackupRoot} {after : Prop}
    (told : final.backups = root.backups ∧ (after ↔ True) ∨
      final.backups ≠ root.backups ∧ ¬ after) :
    Restores (α := α) root (.error error) final after := by
  obtain ⟨kept, clean⟩ | ⟨changed, dirty⟩ := told
  · exact iff_of_true kept (clean.mpr trivial)
  · exact iff_of_false changed dirty

/-- A verification which is refused removes what was installed. -/
theorem tells_verifyInstalled {backupId : Text} {context : BackupVerificationExpectation}
    {installed : BackupRoot} {installedNew : Bool} {after : Prop} (clean : after ↔ True)
    (kept : installedNew = false → installed.backups = root.backups)
    (written : installedNew = true → backupName backupId ∉ root.backups ∧
      backupStateName backupId ∉ root.backups ∧ ∃ envelope blob, installed.backups =
        (root.backups.insert (backupName backupId) envelope).insert (backupStateName backupId) blob) :
    Script.Tells BackupRoot.apply (fun effect => ¬ effect.Uninstalls) BackupEffect.Checks
      (Restores root) (host.verifyInstalled choices installedNew backupId context) installed after := by
  have quiet : (host.verifyDetachedBackup choices backupId context).Always
      (BackupEffect.Touches (fun name => isExactBackupStagingName name = true) fun _ => False) :=
    (orderly_verifyDetachedBackup host choices).accepted
  refine Script.tells_bind.mpr (Script.tells_settle.mpr ((tells_quiet quiet).imp ?_))
  rintro (error | _) final last ⟨same, still⟩
  · cases installedNew with
    | false =>
        exact restores_of (.inl ⟨same.trans (kept rfl), still.trans clean⟩)
    | true =>
        obtain ⟨envelopeNew, stateNew, envelope, blob, stored⟩ := written rfl
        have apart := backupName_ne_backupStateName backupId backupId
        have removed : ((final.apply (.uninstall (backupName backupId))).apply
            (.uninstall (backupStateName backupId))).backups = root.backups := by
          simp only [BackupRoot.apply]
          rw [same, stored, erase_insert_two apart envelopeNew stateNew]
        have thrown : Script.Tells BackupRoot.apply (fun effect => ¬ effect.Uninstalls)
            BackupEffect.Checks (Restores root) (Script.throw error : BackupScript VerifiedBackup)
            ((final.apply (.uninstall (backupName backupId))).apply
              (.uninstall (backupStateName backupId))) last :=
          restores_of (.inl ⟨removed, still.trans clean⟩)
        exact ⟨⟨thrown, fun stays => absurd trivial stays⟩, fun stays => absurd trivial stays⟩
  · trivial

/-- A bundle is installed and verified. -/
theorem tells_install {decoded : BackupHost.DecodedPortableBackupBundle}
    {context : BackupVerificationExpectation} :
    Script.Tells BackupRoot.apply (fun effect => ¬ effect.Uninstalls) BackupEffect.Checks
      (Restores root) (do
        BackupHost.installBundle choices decoded
        host.verifyInstalled choices true decoded.backupId context) root True := by
  have installs : Script.Tells BackupRoot.apply (fun effect => ¬ effect.Uninstalls)
      BackupEffect.Checks (FilesEnd root True decoded.backupId decoded.envelope decoded.protectedState)
      (BackupHost.installBundle choices decoded) root True :=
    tells_files fun _ _ => tells_writeAtomicNewFile
  refine Script.tells_bind.mpr (installs.imp ?_)
  rintro (error | _) installed after told
  · exact restores_of told
  · obtain ⟨envelopeNew, stateNew, stored, clean⟩ := told
    exact tells_verifyInstalled host choices clean nofun fun _ =>
      ⟨envelopeNew, stateNew, _, _, stored⟩

theorem restores_start {α : Type} {error : LifecycleError} :
    Restores (α := α) root (.error error) root True :=
  iff_of_true rfl trivial

theorem tells_lift_bind {α γ : Type} {value : Except LifecycleError α} {next : α → BackupScript γ}
    (second : ∀ result, value = .ok result →
      Script.Tells BackupRoot.apply (fun effect => ¬ effect.Uninstalls) BackupEffect.Checks
        (Restores root) (next result) root True) :
    Script.Tells BackupRoot.apply (fun effect => ¬ effect.Uninstalls) BackupEffect.Checks
      (Restores root) (Script.lift value >>= next) root True := by
  cases value with
  | ok result => exact second result rfl
  | error error => exact restores_start

theorem tells_importPortableBundle {bundle : Octets} {context : BackupVerificationContext} :
    Script.Tells BackupRoot.apply (fun effect => ¬ effect.Uninstalls) BackupEffect.Checks
      (Restores root) (host.importPortableBundle choices bundle context) root True :=
  tells_lift_bind fun _ _ => tells_install host choices

theorem tells_importPortableBundleForRollback {bundle : Octets}
    {context : BackupVerificationContext} :
    Script.Tells BackupRoot.apply (fun effect => ¬ effect.Uninstalls) BackupEffect.Checks
      (Restores root) (host.importPortableBundleForRollback choices bundle context) root True := by
  refine tells_lift_bind fun decoded _ => tells_lift_bind fun _ _ => tells_lift_bind fun _ _ => ?_
  refine Script.tells_current_bind.mpr ?_
  have conflict : Restores (α := VerifiedBackup) root (.error .conflict) root True := restores_start
  rcases root.backups.lookup (backupName decoded.backupId) with _ | envelope
  · rcases root.backups.lookup (backupStateName decoded.backupId) with _ | blob
    · exact tells_install host choices
    · exact conflict
  · rcases root.backups.lookup (backupStateName decoded.backupId) with _ | blob
    · exact conflict
    · refine tells_lift_bind fun _ _ => tells_lift_bind fun _ _ => tells_lift_bind fun _ _ => ?_
      exact tells_verifyInstalled host choices Iff.rfl (fun _ => rfl) nofun

end Imports

/-! ## Exports -/

/-- The numbers of an export fit its row. -/
def RowFits (database : PrivacyDatabase) (request : BackupExportRequest) : Prop :=
  request.createdAtUnix.toNat < 2 ^ 63 ∧ database.keyEpoch.toNat < 2 ^ 63 ∧
    ∀ expiresAtUnix, expiry request database.retentionPolicy = .ok expiresAtUnix →
      expiresAtUnix.toNat < 2 ^ 63

section Exports

variable (host : BackupHost) (choices : BackupChoices) {root : BackupRoot}
  {database : PrivacyDatabase} {workspace : WorkspaceInstanceId} {request : BackupExportRequest}
  {expectation : BackupSchemaExpectation}

/-- An export up to its row: the two files. -/
def BackupHost.fileExport (database : PrivacyDatabase) (workspace : WorkspaceInstanceId)
    (request : BackupExportRequest) (expectation : BackupSchemaExpectation) :
    BackupScript VerifiedBackup := do
  let (envelopeBytes, verified) ← host.sealExport choices database workspace request expectation
  writeAtomicNewFile (backupName verified.backupId) envelopeBytes verified.backupId
    choices.envelopeRandom
  match ← Script.settle (host.writeInitialBackupState choices verified) with
  | .ok () => pure ()
  | .error error => do
      Script.tryPerform (.uninstall (backupName verified.backupId))
      Script.throw error
  pure verified

/-- The row of an export, which removes the files when it is not inserted. -/
def BackupHost.rowExport (database : PrivacyDatabase) (verified : VerifiedBackup) :
    BackupScript (VerifiedBackup × PrivacyDatabase) := do
  match ← Script.lift (BackupHost.insertRow choices database verified) with
  | some inserted => pure (verified, inserted)
  | none => do
      Script.tryPerform (.uninstall (backupName verified.backupId))
      Script.tryPerform (.uninstall (backupStateName verified.backupId))
      Script.throw .conflict

/-- An export writes its files and inserts its row. -/
theorem exportDatabase_eq_row :
    host.exportDatabaseWithSchemaExpectation choices database workspace request expectation = (do
      let verified ← host.fileExport choices database workspace request expectation
      BackupHost.rowExport choices database verified) := by
  rw [exportDatabase_eq, BackupHost.fileExport, Script.bind_assoc]
  congr 1
  funext (envelopeBytes, verified)
  change BackupHost.storeExport host choices database envelopeBytes verified = _
  rw [BackupHost.storeExport, Script.bind_assoc]
  congr 1
  funext _
  rw [Script.bind_assoc]
  congr 1
  funext ended
  cases ended with
  | ok _ => rfl
  | error _ => rfl

/-- What the row of an export is made of. -/
theorem ensures_fileExport :
    (host.fileExport choices database workspace request expectation).Ensures BackupRoot.apply root
      fun verified _ => verified.createdAtUnix = request.createdAtUnix ∧
        verified.keyEpoch = database.keyEpoch ∧
        expiry request database.retentionPolicy = .ok verified.expiresAtUnix := by
  have seals : (host.sealExport choices database workspace request expectation).Ensures
      BackupRoot.apply root fun sealed _ => sealed.2.createdAtUnix = request.createdAtUnix ∧
        sealed.2.keyEpoch = database.keyEpoch ∧
        expiry request database.retentionPolicy = .ok sealed.2.expiresAtUnix := by
    refine Script.ensures_lift_bind fun _ _ => Script.ensures_lift_bind fun _ _ =>
      Script.ensures_refuse_bind fun _ => Script.ensures_lift_bind fun _ _ =>
      Script.ensures_lift_bind fun _ _ => Script.ensures_lift_bind fun _ _ =>
      Script.ensures_lift_bind fun _ _ => Script.ensures_lift_bind fun _ _ =>
      Script.ensures_lift_bind fun _ _ => Script.ensures_lift_bind fun expiresAtUnix expires => ?_
    refine (Script.ensures_true _).bind fun _ _ _ => (Script.ensures_true _).bind fun _ _ _ => ?_
    exact Script.ensures_lift_bind fun _ _ => Script.ensures_lift_bind fun _ _ =>
      Script.ensures_refuse_bind fun _ => Script.ensures_pure ⟨rfl, rfl, expires⟩
  refine seals.bind fun sealed _ row => (Script.ensures_true _).bind fun _ _ _ => ?_
  refine (Script.ensures_true _).settle_bind (fun _ _ _ => ?_) fun _ _ => ?_
  · exact Script.ensures_pure row
  · exact (Script.ensures_true _).bind fun _ _ _ => Script.ensures_throw

/-- How the files of an export end. -/
def FileExportEnds (root : BackupRoot) :
    Except LifecycleError VerifiedBackup → BackupRoot → Prop → Prop
  | .ok verified, final, after => backupName verified.backupId ∉ root.backups ∧
      backupStateName verified.backupId ∉ root.backups ∧
      (∃ envelope blob, final.backups = (root.backups.insert (backupName verified.backupId)
        envelope).insert (backupStateName verified.backupId) blob) ∧ (after ↔ True)
  | .error _, final, after => final.backups = root.backups ∧ (after ↔ True) ∨
      final.backups ≠ root.backups ∧ ¬ after

theorem tells_fileExport :
    Script.Tells BackupRoot.apply (fun effect => ¬ effect.Uninstalls) BackupEffect.Checks
      (FileExportEnds root) (host.fileExport choices database workspace request expectation)
      root True := by
  have orderly : Orderly (fun _ => False)
      (host.sealExport choices database workspace request expectation) := by
    refine orderly_lift.bind fun _ => orderly_lift_bind fun _ checked => ?_
    refine orderly_refuse.bind fun _ => orderly_lift.bind fun _ => orderly_lift.bind fun _ =>
      orderly_lift.bind fun _ => orderly_lift.bind fun _ => orderly_lift.bind fun _ =>
      orderly_lift.bind fun _ => orderly_lift.bind fun _ => ?_
    exact (orderly_snapshotBytes host choices).bind fun _ =>
      (orderly_verifySqliteSnapshotBytes host choices (checkOpaqueId_eq_ok.mp checked)).bind fun _ =>
      orderly_lift.bind fun _ => orderly_lift.bind fun _ => orderly_refuse.bind fun _ => orderly_pure
  refine Script.tells_bind.mpr ((tells_quiet orderly.accepted).imp ?_)
  rintro (error | ⟨envelope, verified⟩) before now ⟨same, still⟩
  · exact .inl ⟨same, still⟩
  obtain ⟨blob, states⟩ : ∃ blob, ∀ (start : BackupRoot) (clean : Prop),
      Script.Tells BackupRoot.apply (fun effect => ¬ effect.Uninstalls) BackupEffect.Checks
        (FileEnds start clean (backupStateName verified.backupId) blob)
        (host.writeInitialBackupState choices verified) start clean := by
    rw [BackupHost.writeInitialBackupState, BackupHost.writeNewBackupState]
    rcases host.protectState choices _ with error | blob
    · exact ⟨[], fun _ _ => .inl ⟨rfl, Iff.rfl⟩⟩
    refine ⟨blob, fun start clean => Script.tells_bind.mpr (Script.tells_lift.mpr
      (Script.tells_bind.mpr (Script.tells_refuse.mpr ⟨?_, ?_⟩)))⟩
    · exact fun _ => .inl ⟨rfl, Iff.rfl⟩
    intro short
    refine Script.tells_bind.mpr (Script.tells_lift.mpr ?_)
    rcases checkOpaqueId verified.backupId "bkp_".toList with error | _
    · exact .inl ⟨rfl, Iff.rfl⟩
    · exact tells_writeAtomicNewFile
  have grouped : (do
      writeAtomicNewFile (backupName verified.backupId) envelope verified.backupId
        choices.envelopeRandom
      match ← Script.settle (host.writeInitialBackupState choices verified) with
      | .ok () => pure ()
      | .error error => do
          Script.tryPerform (.uninstall (backupName verified.backupId))
          Script.throw error
      pure verified : BackupScript VerifiedBackup) = (do
        writeAtomicNewFile (backupName verified.backupId) envelope verified.backupId
          choices.envelopeRandom
        match ← Script.settle (host.writeInitialBackupState choices verified) with
        | .ok () => pure ()
        | .error error => do
            Script.tryPerform (.uninstall (backupName verified.backupId))
            Script.throw error) >>= fun _ => pure verified := by
    rw [Script.bind_assoc]
    congr 1
    funext _
    rw [Script.bind_assoc]
    congr 1
    funext ended
    cases ended with
    | ok _ => rfl
    | error _ => rfl
  change Script.Tells BackupRoot.apply (fun effect => ¬ effect.Uninstalls) BackupEffect.Checks
    (FileExportEnds root) _ before now
  dsimp only
  rw [grouped]
  refine Script.tells_bind.mpr ((tells_files states).imp ?_)
  rintro (error | _) final last told
  · obtain ⟨kept, clean⟩ | changed := told
    · exact .inl ⟨kept.trans same, clean.trans still⟩
    · exact .inr (same ▸ changed)
  · obtain ⟨envelopeNew, stateNew, stored, clean⟩ := told
    rw [same] at envelopeNew stateNew stored
    exact ⟨envelopeNew, stateNew, ⟨envelope, blob, stored⟩, clean.trans still⟩

/-- A row whose numbers fit is inserted or refused. -/
theorem insertRow_of_fits {verified : VerifiedBackup} (created : verified.createdAtUnix.toNat < 2 ^ 63)
    (expires : verified.expiresAtUnix.toNat < 2 ^ 63) (keyed : verified.keyEpoch.toNat < 2 ^ 63) :
    ∃ inserted, BackupHost.insertRow choices database verified = .ok inserted := by
  have fits {value : UInt64} (small : value.toNat < 2 ^ 63) :
      ∃ stored, sqlI64 value = .ok stored := ⟨_, sqlI64_eq_ok.mpr ⟨small, rfl⟩⟩
  obtain ⟨createdAtUnix, createdFits⟩ := fits created
  obtain ⟨expiresAtUnix, expiresFits⟩ := fits expires
  obtain ⟨keyEpoch, keyFits⟩ := fits keyed
  rw [BackupHost.insertRow, createdFits, expiresFits, keyFits]
  simp only [ok_bind]
  split_ifs
  · exact ⟨none, rfl⟩
  · exact ⟨some _, rfl⟩

/-- The row of an export fails: the files stay exactly when its numbers do not fit. -/
theorem rowExport_restores {verified : VerifiedBackup} {stored : BackupRoot} {answers : List Bool}
    {error : LifecycleError} (fits : RowFits database request ↔
      verified.createdAtUnix.toNat < 2 ^ 63 ∧ verified.expiresAtUnix.toNat < 2 ^ 63 ∧
        verified.keyEpoch.toNat < 2 ^ 63)
    (envelopeNew : backupName verified.backupId ∉ root.backups)
    (stateNew : backupStateName verified.backupId ∉ root.backups)
    (written : ∃ envelope blob, stored.backups = (root.backups.insert
      (backupName verified.backupId) envelope).insert (backupStateName verified.backupId) blob)
    (admitted : (BackupHost.rowExport choices database verified).Admits BackupRoot.apply
      (fun effect => ¬ effect.Uninstalls) stored answers)
    (ends : ((BackupHost.rowExport choices database verified).run BackupRoot.apply stored
      answers).result = some (.error error)) :
    ((BackupHost.rowExport choices database verified).run BackupRoot.apply stored
        answers).state.backups = root.backups ↔ RowFits database request := by
  have apart := backupName_ne_backupStateName verified.backupId verified.backupId
  obtain ⟨envelope, blob, written⟩ := written
  have tells : Script.Tells BackupRoot.apply (fun effect => ¬ effect.Uninstalls)
      BackupEffect.Checks (fun result final _ => ∀ error, result = .error error →
        (final.backups = root.backups ↔ RowFits database request))
      (BackupHost.rowExport choices database verified) stored True := by
    refine Script.tells_bind.mpr (Script.tells_lift.mpr ?_)
    cases computed : BackupHost.insertRow choices database verified with
    | error error =>
        refine fun _ _ => iff_of_false (fun equal => envelopeNew ?_) fun small => ?_
        · rw [← equal, written]
          exact (AList.mem_insert _).mpr (.inr ((AList.mem_insert _).mpr (.inl rfl)))
        · obtain ⟨created, expires, keyed⟩ := fits.mp small
          have inserts : ∃ inserted, BackupHost.insertRow choices database verified = .ok inserted :=
            insertRow_of_fits choices created expires keyed
          obtain ⟨inserted, done⟩ := inserts
          rw [computed] at done
          cases done
    | ok inserted =>
        cases inserted with
        | some inserted => exact nofun
        | none =>
            have removed : ((stored.apply (.uninstall (backupName verified.backupId))).apply
                (.uninstall (backupStateName verified.backupId))).backups = root.backups := by
              simp only [BackupRoot.apply]
              rw [written, erase_insert_two apart envelopeNew stateNew]
            exact ⟨⟨fun _ _ => iff_of_true removed (fits.mpr (insertRow_eq_ok choices computed)),
              fun stays => absurd trivial stays⟩, fun stays => absurd trivial stays⟩
  exact tells.run admitted ends error rfl

/-- The row of an export checks no file. -/
theorem admits_rowExport {verified : VerifiedBackup} {stored : BackupRoot} {answers : List Bool} :
    (BackupHost.rowExport choices database verified).Admits BackupRoot.apply
      (fun effect => ¬ effect.Checks) stored answers := by
  have plain : (BackupHost.rowExport choices database verified).Always fun effect => ¬ effect.Checks := by
    refine Script.always_lift.bind fun inserted => ?_
    cases inserted with
    | some _ => exact trivial
    | none => exact ⟨id, fun _ => ⟨id, fun _ => trivial⟩⟩
  exact plain.admits stored answers

/-- How an export fails: `backups` is what it was exactly when no check failed, and the numbers fit
the row or the files were not written. -/
theorem exportDatabase_restores {answers : List Bool} {error : LifecycleError}
    (admitted : (host.exportDatabaseWithSchemaExpectation choices database workspace request
      expectation).Admits BackupRoot.apply (fun effect => ¬ effect.Uninstalls) root answers)
    (ends : ((host.exportDatabaseWithSchemaExpectation choices database workspace request
      expectation).run BackupRoot.apply root answers).result = some (.error error)) :
    ((host.exportDatabaseWithSchemaExpectation choices database workspace request
        expectation).run BackupRoot.apply root answers).state.backups = root.backups ↔
      (host.exportDatabaseWithSchemaExpectation choices database workspace request
        expectation).Admits BackupRoot.apply (fun effect => ¬ effect.Checks) root answers ∧
      (RowFits database request ∨ ∀ verified,
        ((host.fileExport choices database workspace request expectation).run BackupRoot.apply root
          answers).result ≠ some (.ok verified)) := by
  rw [exportDatabase_eq_row] at admitted ends ⊢
  obtain ⟨filesAdmitted, rowAdmitted⟩ := Script.admits_bind.mp admitted
  rw [Script.admits_bind]
  rw [Script.run_bind] at ends ⊢
  cases filed : ((host.fileExport choices database workspace request expectation).run
      BackupRoot.apply root answers).result with
  | none =>
      rw [filed] at ends
      cases ends
  | some result =>
      have tells : Script.Tells BackupRoot.apply (fun effect => ¬ effect.Uninstalls)
          BackupEffect.Checks (FileExportEnds root)
          (host.fileExport choices database workspace request expectation) root True :=
        tells_fileExport host choices
      have told := tells.run filesAdmitted filed
      rw [true_and] at told
      cases result with
      | error error =>
          have unfinished {verified : VerifiedBackup} :
              (some (.error error) : Option (Except LifecycleError VerifiedBackup)) ≠
                some (.ok verified) := nofun
          dsimp only
          rw [and_iff_left fun _ found => absurd found unfinished,
            and_iff_left (.inr fun _ => unfinished)]
          obtain ⟨kept, clean⟩ | ⟨changed, dirty⟩ := told
          · exact iff_of_true kept (clean.mpr trivial)
          · exact iff_of_false changed dirty
      | ok verified =>
          obtain ⟨envelopeNew, stateNew, written, clean⟩ := told
          obtain ⟨created, keyed, expires⟩ := (ensures_fileExport host choices).run filed
          have fits : RowFits database request ↔ verified.createdAtUnix.toNat < 2 ^ 63 ∧
              verified.expiresAtUnix.toNat < 2 ^ 63 ∧ verified.keyEpoch.toNat < 2 ^ 63 := by
            rw [RowFits, created, keyed]
            constructor
            · rintro ⟨small, smallKey, smallExpiry⟩
              exact ⟨small, smallExpiry _ expires, smallKey⟩
            · rintro ⟨small, smallExpiry, smallKey⟩
              refine ⟨small, smallKey, fun other found => ?_⟩
              cases expires.symm.trans found
              exact smallExpiry
          rw [filed] at ends
          refine (rowExport_restores choices fits envelopeNew stateNew written
            (rowAdmitted verified filed) ends).trans ?_
          have done : ¬ ∀ other, (some (.ok verified) : Option (Except LifecycleError
              VerifiedBackup)) ≠ some (.ok other) := fun none => none verified rfl
          rw [or_iff_left done, and_iff_right]
          exact ⟨clean.mpr trivial, fun _ _ => admits_rowExport choices⟩

end Exports

/-! ## Operations which fail -/

/-- What holds of an execution: the files which were there stay, and when it ends with an error,
and what it removes is removed, `backups` is what it was exactly under a condition. -/
structure Undoes {α : Type} (script : BackupScript α) (root : BackupRoot) (answers : List Bool)
    (condition : Prop) : Prop where
  keeps : ∀ name bytes, root.Stores name bytes →
    (script.run BackupRoot.apply root answers).state.Stores name bytes
  restores : ∀ error, script.Admits BackupRoot.apply (fun effect => ¬ effect.Uninstalls) root answers →
    (script.run BackupRoot.apply root answers).result = some (.error error) →
    ((script.run BackupRoot.apply root answers).state.backups = root.backups ↔ condition)

/-- A script which restores undoes what it did exactly when no check failed. -/
theorem undoes_of_tells {α : Type} {script : BackupScript α} {root : BackupRoot}
    {answers : List Bool} (keeps : ∀ name bytes, KeepsFile name bytes script)
    (tells : Script.Tells BackupRoot.apply (fun effect => ¬ effect.Uninstalls) BackupEffect.Checks
      (Restores root) script root True) :
    Undoes script root answers
      (script.Admits BackupRoot.apply (fun effect => ¬ effect.Checks) root answers) where
  keeps name bytes stores := (keeps name bytes).maintains.run_maintained stores answers
  restores error admitted ends := by
    have told := tells.run admitted ends
    rw [true_and] at told
    exact told

/-- An export or an import which fails leaves `backups` as it was exactly when no check of an
installed file failed and, for an export whose files were written, its numbers fit the row; and
keeps every file which was there. The registry of an export is returned with its success only. -/
theorem failed_operations_restore_backups (host : BackupHost) (choices : BackupChoices)
    (root : BackupRoot) (answers : List Bool) :
    (∀ database workspace request expectation,
      Undoes (host.exportDatabaseWithSchemaExpectation choices database workspace request
        expectation) root answers
        ((host.exportDatabaseWithSchemaExpectation choices database workspace request
          expectation).Admits BackupRoot.apply (fun effect => ¬ effect.Checks) root answers ∧
        (RowFits database request ∨ ∀ verified,
          ((host.fileExport choices database workspace request expectation).run BackupRoot.apply
            root answers).result ≠ some (.ok verified)))) ∧
    ∀ bundle context,
      Undoes (host.importPortableBundle choices bundle context) root answers
        ((host.importPortableBundle choices bundle context).Admits BackupRoot.apply
          (fun effect => ¬ effect.Checks) root answers) ∧
      Undoes (host.importPortableBundleForRollback choices bundle context) root answers
        ((host.importPortableBundleForRollback choices bundle context).Admits BackupRoot.apply
          (fun effect => ¬ effect.Checks) root answers) := by
  refine ⟨fun database workspace request expectation => ⟨?_, ?_⟩, fun bundle context => ⟨?_, ?_⟩⟩
  · exact fun name bytes stores =>
      (keepsFile_exportDatabase host choices).maintains.run_maintained stores answers
  · exact fun error admitted ends => exportDatabase_restores host choices admitted ends
  · refine undoes_of_tells (fun name bytes => ?_) (tells_importPortableBundle host choices)
    exact keepsFile_lift_bind fun _ computed =>
      keepsFile_install host choices (decodePortableBundle_valid host computed)
  · exact undoes_of_tells (fun _ _ => keepsFile_importPortableBundleForRollback host choices)
      (tells_importPortableBundleForRollback host choices)

/-! ## A file which stays -/

/-- A file whose check fails is there, and the write of it failed. -/
theorem run_writeAtomicNewFile_unchecked {root : BackupRoot} {target backupId : Text}
    {bytes : Octets} {random : NameRandom} (new : target ∉ root.backups)
    (newWrite : writeName backupId random ∉ root.staging) :
    ∃ final : BackupRoot, final.backups = root.backups.insert target bytes ∧
      (writeAtomicNewFile target bytes backupId random).run BackupRoot.apply root
        [true, true, true, false] = ⟨final, some (.error .unsafeFilesystem)⟩ := by
  rw [writeAtomicNewFile, Script.run_current_bind, Script.run_refuse_bind, if_neg new,
    writeNewSafeFile, Script.bind_assoc, Script.run_current_bind, Script.bind_assoc,
    Script.run_refuse_bind, if_neg newWrite, Script.bind_assoc, Script.run_perform_bind]
  dsimp only
  rw [Script.run_perform_bind]
  dsimp only
  rw [Script.run_settle_perform_bind]
  refine ⟨_, ?_, rfl⟩
  simp only [BackupRoot.apply, AList.lookup_insert, Bool.false_eq_true, if_false]

/-- The write of a file removes no file which was installed. -/
theorem admits_writeAtomicNewFile {root : BackupRoot} {target backupId : Text} {bytes : Octets}
    {random : NameRandom} {answers : List Bool} :
    (writeAtomicNewFile target bytes backupId random).Admits BackupRoot.apply
      (fun effect => ¬ effect.Uninstalls) root answers := by
  have removes : (removeSensitiveSqliteTemporary (writeName backupId random)).Always
      fun effect => ¬ effect.Uninstalls := by
    have touches : (removeSensitiveSqliteTemporary (writeName backupId random)).Always
        (BackupEffect.Touches (fun _ => True) fun _ => False) :=
      always_removeSensitiveSqliteTemporary
    refine touches.imp fun effect quiet uninstalls => ?_
    cases effect with
    | uninstall target => exact quiet
    | create | write | remove | install | check => exact uninstalls
  have plain : (writeAtomicNewFile target bytes backupId random).Always
      fun effect => ¬ effect.Uninstalls := by
    refine Script.always_current.bind fun _ => Script.always_refuse.bind fun _ => ?_
    refine (Script.always_current.bind fun _ => Script.always_refuse.bind fun _ =>
      (Script.always_perform.mpr id).bind fun _ => Script.always_perform.mpr id).bind fun _ => ?_
    refine (Script.always_perform.mpr id).settle.bind fun installed => ?_
    cases installed with
    | ok _ => exact Script.always_perform.mpr id
    | error _ => exact removes.bind fun _ => Script.always_lift
  exact plain.admits root answers

/-- A bundle is imported whose envelope is installed, and not found to be the file which was
written: the import fails, and the envelope stays. -/
theorem failed_import_leaves_envelope : ∃ bundle error,
    (transferHost.importPortableBundle sampleChoices bundle (transferVerified.context 5)).Admits
      BackupRoot.apply (fun effect => ¬ effect.Uninstalls) ⟨∅, ∅⟩ [true, true, true, false] ∧
    ((transferHost.importPortableBundle sampleChoices bundle (transferVerified.context 5)).run
      BackupRoot.apply ⟨∅, ∅⟩ [true, true, true, false]).result = some (.error error) ∧
    ((transferHost.importPortableBundle sampleChoices bundle (transferVerified.context 5)).run
      BackupRoot.apply ⟨∅, ∅⟩ [true, true, true, false]).state.backups ≠ ∅ := by
  have ideal : transferHost.platform.Ideal := ideal_transferPlatform
  obtain ⟨answers, root, runs, holds, empty⟩ := transfer_exported.exists_run
  have ends := congrArg Script.Outcome.result runs
  obtain ⟨_, _, _, bytes, envelope, blob, _, exported, stored, _⟩ :=
    (ensures_exportDatabase transferHost sampleChoices ideal).run ends
  rw [runs] at stored
  have began : transferVerified.createdAtUnix ≤ 5 := by decide
  have lasts : 5 < transferVerified.expiresAtUnix := by decide
  have new : verifyName transferVerified.backupId sampleChoices.verifyRandom ∉ root.staging := empty _
  obtain ⟨bundle, _, decoded⟩ :=
    exported.completes_exportPortableBundle ideal stored began lasts new
  have none (name : Text) : name ∉ (∅ : Directory) := AList.notMem_empty name
  obtain ⟨final, installed, wrote⟩ := @run_writeAtomicNewFile_unchecked ⟨∅, ∅⟩
    (backupName transferVerified.backupId) transferVerified.backupId envelope
    sampleChoices.envelopeRandom (none _) (none _)
  have fails : (transferHost.importPortableBundle sampleChoices bundle
      (transferVerified.context 5)).run BackupRoot.apply ⟨∅, ∅⟩ [true, true, true, false] =
        ⟨final, some (.error .unsafeFilesystem)⟩ := by
    rw [BackupHost.importPortableBundle, Script.run_lift_bind, decoded]
    dsimp only
    rw [BackupHost.installBundle, Script.bind_assoc, Script.run_bind, wrote]
  refine ⟨bundle, .unsafeFilesystem, ?_, congrArg Script.Outcome.result fails, ?_⟩
  · rw [BackupHost.importPortableBundle, decoded]
    refine Script.admits_bind.mpr ⟨trivial, fun _ found => ?_⟩
    cases found
    rw [BackupHost.installBundle, Script.bind_assoc]
    refine Script.admits_bind.mpr ⟨admits_writeAtomicNewFile, fun _ found => ?_⟩
    have failed := congrArg Script.Outcome.result wrote
    cases failed.symm.trans found
  · rw [fails, installed]
    intro same
    exact none (backupName transferVerified.backupId) (same ▸ (AList.mem_insert _).mpr (.inl rfl))

end LawyerAssistance.Backups

import LawyerAssistance.Backups.StoredFiles

/-!
# Withdrawn backups

A revocation puts a revoked state in the place of the state of its backup, and nothing else changes
it: the files of a backup are there in every later run, and its state is the same or revoked.
-/

namespace LawyerAssistance.Backups

open Privacy Lifecycle

/-- The state of a backup in `backups` is a revoked one. -/
def BackupHost.Withdrawn (host : BackupHost) (backupId : Text) (root : BackupRoot) : Prop :=
  ∃ blob state, root.Stores (backupStateName backupId) blob ∧ host.unprotectState blob = .ok state ∧
    state.state = revokedState

/-- The files of a backup are there, and its state is the same unless it was withdrawn. -/
structure BackupHost.Retains (host : BackupHost) (backupId : Text) (envelope blob : Octets)
    (root : BackupRoot) : Prop where
  envelope : root.Stores (backupName backupId) envelope
  state : root.Stores (backupStateName backupId) blob ∨ host.Withdrawn backupId root

/-- What a revocation does to `backups`: other files are the same, and the state of the backup is
the same or revoked. -/
structure BackupHost.Replaces (host : BackupHost) (backupId : Text) (root final : BackupRoot) :
    Prop where
  others : ∀ name, name ≠ backupStateName backupId →
    final.backups.lookup name = root.backups.lookup name
  state : final.backups.lookup (backupStateName backupId) =
    root.backups.lookup (backupStateName backupId) ∨ host.Withdrawn backupId final

section Replaces

variable {host : BackupHost} {backupId other : Text} {root final : BackupRoot} {name : Text}
  {bytes envelope blob : Octets}

/-- The same `backups`. -/
theorem BackupHost.replaces_of_eq (same : final.backups = root.backups) :
    host.Replaces backupId root final :=
  ⟨fun _ _ => by rw [same], .inl (by rw [same])⟩

theorem BackupHost.Replaces.stores (replaces : host.Replaces backupId root final)
    (stores : root.Stores name bytes) (different : name ≠ backupStateName backupId) :
    final.Stores name bytes :=
  (replaces.others name different).trans stores

/-- A withdrawn backup stays withdrawn. -/
theorem BackupHost.Replaces.withdrawn (replaces : host.Replaces backupId root final)
    (withdrawn : host.Withdrawn other root) : host.Withdrawn other final := by
  obtain ⟨blob, state, stores, unprotected, revoked⟩ := withdrawn
  by_cases same : other = backupId
  · subst same
    obtain kept | withdrawn := replaces.state
    · exact ⟨blob, state, kept.trans stores, unprotected, revoked⟩
    · exact withdrawn
  · have different : backupStateName other ≠ backupStateName backupId :=
      fun equal => same (backupStateName_injective equal)
    exact ⟨blob, state, replaces.stores stores different, unprotected, revoked⟩

/-- The files of every backup are retained. -/
theorem BackupHost.Replaces.retains (replaces : host.Replaces backupId root final)
    (retains : host.Retains other envelope blob root) : host.Retains other envelope blob final := by
  refine ⟨replaces.stores retains.envelope (backupName_ne_backupStateName _ _), ?_⟩
  obtain stores | withdrawn := retains.state
  · by_cases same : other = backupId
    · subst same
      exact replaces.state.imp_left fun kept => kept.trans stores
    · exact .inl (replaces.stores stores fun equal => same (backupStateName_injective equal))
  · exact .inr (replaces.withdrawn withdrawn)

end Replaces

/-! ## Revocations -/

section Revocation

variable (host : BackupHost) (choices : BackupChoices) {backupId : Text} {root : BackupRoot}

/-- A new file of `.staging` leaves `backups` as it is. -/
theorem holds_writeNewSafeFile_backups {name : Text} {bytes : Octets} :
    (writeNewSafeFile name bytes).Holds BackupRoot.apply (fun _ => True)
      (fun state effect => (state.apply effect).backups = root.backups)
      (fun result final => final.backups = root.backups ∧
        ∀ value, result = .ok value → final.staging.lookup name = some bytes) root := by
  refine Script.holds_bind.mpr (Script.holds_current.mpr (Script.holds_bind.mpr ?_))
  refine Script.holds_refuse.mpr ⟨fun _ => ⟨rfl, nofun⟩, fun _ => Script.holds_bind.mpr ?_⟩
  refine Script.holds_perform.mpr ⟨rfl, ?_, fun _ => ⟨rfl, nofun⟩⟩
  exact Script.holds_perform.mpr ⟨rfl, ⟨rfl, fun _ _ => AList.lookup_insert _⟩, fun _ => ⟨rfl, nofun⟩⟩

/-- A temporary file which is removed leaves `backups` as it is. -/
theorem holds_removeSafeTemporary_backups {name : Text} :
    (removeSafeTemporary name).Holds BackupRoot.apply (fun _ => True)
      (fun state effect => (state.apply effect).backups = root.backups)
      (fun _ final => final.backups = root.backups) root := by
  refine Script.holds_bind.mpr (Script.holds_current.mpr ?_)
  dsimp only
  split_ifs
  · exact Script.holds_perform.mpr ⟨rfl, rfl, fun _ => rfl⟩
  · exact Script.holds_pure.mpr rfl

/-- A state which is loaded is stored. -/
theorem holds_loadBackupState {mayFail : BackupEffect → Prop}
    {guarantee : BackupRoot → BackupEffect → Prop} :
    (host.loadBackupState backupId).Holds BackupRoot.apply mayFail guarantee
      (fun result final => final = root ∧ ∀ state, result = .ok state → state.backupId = backupId ∧
        ∃ blob, root.Stores (backupStateName backupId) blob ∧ host.unprotectState blob = .ok state)
      root := by
  refine Script.holds_bind.mpr (Script.holds_lift.mpr ?_)
  cases checkOpaqueId backupId "bkp_".toList with
  | error error => exact ⟨rfl, nofun⟩
  | ok _ =>
    refine Script.holds_bind.mpr (Script.holds_current.mpr (Script.holds_bind.mpr
      (Script.holds_lift.mpr ?_)))
    cases read : readSafeFile (root.backups.lookup (backupStateName backupId))
        maxProtectedBackupStateBytes with
    | error error => exact ⟨rfl, nofun⟩
    | ok blob =>
      obtain ⟨stores, _⟩ := readSafeFile_eq_ok.mp read
      refine Script.holds_bind.mpr (Script.holds_lift.mpr ?_)
      cases unprotected : host.unprotectState blob with
      | error error => exact ⟨rfl, nofun⟩
      | ok state =>
        refine Script.holds_bind.mpr (Script.holds_refuse.mpr ⟨fun _ => ⟨rfl, nofun⟩, ?_⟩)
        intro same
        refine Script.holds_pure.mpr ⟨rfl, ?_⟩
        rintro _ ⟨⟩
        exact ⟨not_not.mp same, blob, stores, unprotected⟩

/-- A revocation of a state replaces it, or leaves it as it is. -/
theorem holds_revokeBackupState (ideal : host.platform.Ideal) {revokedAtUnix : UInt64} :
    (host.revokeBackupState choices backupId revokedAtUnix).Holds BackupRoot.apply (fun _ => True)
      (fun state effect => host.Replaces backupId root (state.apply effect))
      (fun result final => host.Replaces backupId root final ∧
        ∀ value, result = .ok value → host.Withdrawn backupId final) root := by
  have unchanged : host.Replaces backupId root root := BackupHost.replaces_of_eq rfl
  have noValue {error : LifecycleError} {final : BackupRoot} (value : Unit)
      (failed : .error error = Except.ok value) : host.Withdrawn backupId final := by
    cases failed
  refine (holds_loadBackupState host).bind ?_ fun error final loaded => ⟨?_, noValue⟩
  · rintro state final ⟨rfl, loaded⟩
    obtain ⟨same, blob, stores, unprotected⟩ := loaded state rfl
    refine Script.holds_bind.mpr (Script.holds_refuse.mpr
      ⟨fun _ => ⟨unchanged, noValue⟩, fun _ => ?_⟩)
    dsimp only
    split_ifs with revoked
    · exact Script.holds_pure.mpr ⟨unchanged, fun _ _ => ⟨blob, state, stores, unprotected, revoked⟩⟩
    refine Script.holds_bind.mpr (Script.holds_refuse.mpr
      ⟨fun _ => ⟨unchanged, noValue⟩, fun _ => Script.holds_bind.mpr (Script.holds_lift.mpr ?_)⟩)
    cases computed : host.protectState choices { state with
        state := revokedState, revokedAtUnix := some revokedAtUnix } with
    | error error => exact ⟨unchanged, noValue⟩
    | ok revocation =>
      refine Script.holds_bind.mpr (Script.holds_lift.mpr ?_)
      cases temporaryPath backupId choices.revocationRandom "state.tmp".toList with
      | error error => exact ⟨unchanged, noValue⟩
      | ok temporary =>
        refine Script.Holds.bind (holds_writeNewSafeFile_backups.imp
          (fun _ _ kept => BackupHost.replaces_of_eq kept) fun _ _ ends => ends) ?_
          fun error final ends => ⟨BackupHost.replaces_of_eq ends.1, noValue⟩
        intro _ written ends
        obtain ⟨kept, found⟩ := ends
        have installed : host.Withdrawn backupId (written.apply (.install temporary
            (backupStateName backupId))) := by
          refine ⟨revocation, _, ?_, unprotectState_protectState ideal computed, rfl⟩
          rw [BackupRoot.Stores, BackupRoot.apply, found _ rfl]
          exact AList.lookup_insert _
        have replaces : host.Replaces backupId final (written.apply (.install temporary
            (backupStateName backupId))) := by
          refine ⟨fun name different => ?_, .inr installed⟩
          rw [BackupRoot.apply, found _ rfl]
          dsimp only
          rw [AList.lookup_insert_ne different, kept]
        refine Script.holds_bind.mpr (Script.holds_settle.mpr (Script.holds_perform.mpr
          ⟨replaces, Script.holds_perform.mpr ⟨replaces, ⟨replaces, fun _ _ => installed⟩,
            fun _ => ⟨replaces, noValue⟩⟩, fun _ => ?_⟩))
        refine Script.holds_bind.mpr (Script.holds_settle.mpr (holds_removeSafeTemporary_backups.imp
          (fun _ _ same => BackupHost.replaces_of_eq (same.trans kept)) ?_))
        exact fun _ _ same => ⟨BackupHost.replaces_of_eq (same.trans kept), noValue⟩
  · rw [loaded.1]
    exact unchanged

/-- A revocation replaces the state of its backup, or leaves it as it is. -/
theorem holds_revokeBackup (ideal : host.platform.Ideal) {registry : BackupRegistry}
    {revokedAtUnix : UInt64} :
    (host.revokeBackup choices registry backupId revokedAtUnix).Holds BackupRoot.apply
      (fun _ => True) (fun state effect => host.Replaces backupId root (state.apply effect))
      (fun result final => host.Replaces backupId root final ∧
        ∀ value, result = .ok value → host.Withdrawn backupId final) root := by
  have unchanged : host.Replaces backupId root root := BackupHost.replaces_of_eq rfl
  refine Script.holds_bind.mpr (Script.holds_lift.mpr ?_)
  cases checkOpaqueId backupId "bkp_".toList with
  | error error => exact ⟨unchanged, nofun⟩
  | ok _ =>
    refine Script.holds_bind.mpr (Script.holds_refuse.mpr
      ⟨fun _ => ⟨unchanged, nofun⟩, fun _ => ?_⟩)
    refine (holds_revokeBackupState host choices ideal).bind ?_ fun _ _ ends => ⟨ends.1, nofun⟩
    exact fun value final ends => Script.holds_lift.mpr ⟨ends.1, fun _ _ => ends.2 value rfl⟩

end Revocation

/-! ## Runs -/

section Runs

variable {host : BackupHost} {backupId : Text} {envelope blob : Octets} {state next final : StoreState}

/-- A step of a store maintains every file, or is a revocation. -/
theorem storeMachine_step (ideal : host.platform.Ideal) {event : StoreEvent}
    (step : (storeMachine host).step state event = some next) :
    (∀ name bytes, state.root.Stores name bytes → next.root.Stores name bytes) ∨
      ∃ backupId, host.Replaces backupId state.root next.root := by
  cases event with
  | operate operation choices answers =>
      simp only [storeMachine] at step
      split_ifs at step
      cases step
      cases revocation : operation.isRevocation with
      | true =>
          cases operation with
          | revoke registry backupId revokedAtUnix =>
              refine .inr ⟨backupId, ?_⟩
              dsimp only [BackupOperation.script]
              rw [Script.run_bind_quiet_state fun _ => Script.always_pure]
              have holds := @holds_revokeBackup host choices backupId state.root ideal registry
                revokedAtUnix
              exact holds.run_invariant (host.Replaces backupId state.root) (fun _ kept => kept)
                (BackupHost.replaces_of_eq rfl) (Script.admits_of_mayFail _ (fun _ => trivial) _ _)
          | exportDatabase | verify | restore | verifyDetached | restoreDetached | exportBundle |
            importBundle | importBundleForRollback => cases revocation
      | false =>
          exact .inl fun name bytes stores =>
            (keepsFile_script host choices revocation).maintains.run_maintained stores answers
  | reopen answers =>
      cases step
      refine .inl fun name bytes stores => ?_
      have always : openStore.Always (BackupEffect.Touches (fun _ => True) fun _ => False) :=
        always_openStore
      exact always.run_invariant _ _ (fun stores touches => stores.apply touches id) stores answers

/-- The files of a backup are retained in every run. -/
theorem BackupHost.Retains.run (ideal : host.platform.Ideal)
    (retains : host.Retains backupId envelope blob state.root) {events : List StoreEvent}
    (runs : (storeMachine host).run state events = some final) :
    host.Retains backupId envelope blob final.root := by
  refine Machine.run_invariant (fun state => host.Retains backupId envelope blob state.root) ?_
    retains runs
  intro state event next retains step
  obtain kept | ⟨other, replaces⟩ := storeMachine_step ideal step
  · refine ⟨kept _ _ retains.envelope, retains.state.imp (kept _ _) ?_⟩
    rintro ⟨blob, state, stores, unprotected, revoked⟩
    exact ⟨blob, state, kept _ _ stores, unprotected, revoked⟩
  · exact replaces.retains retains

/-- A withdrawn backup is withdrawn in every later run. -/
theorem BackupHost.Withdrawn.run (ideal : host.platform.Ideal)
    (withdrawn : host.Withdrawn backupId state.root) {events : List StoreEvent}
    (runs : (storeMachine host).run state events = some final) :
    host.Withdrawn backupId final.root := by
  refine Machine.run_invariant (fun state => host.Withdrawn backupId state.root) ?_ withdrawn runs
  intro state event next withdrawn step
  obtain kept | ⟨other, replaces⟩ := storeMachine_step ideal step
  · obtain ⟨blob, state, stores, unprotected, revoked⟩ := withdrawn
    exact ⟨blob, state, kept _ _ stores, unprotected, revoked⟩
  · exact replaces.withdrawn withdrawn

end Runs

end LawyerAssistance.Backups

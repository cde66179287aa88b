import LawyerAssistance.Backups.Completions
import LawyerAssistance.Backups.Withdrawals

/-!
# Revoked backups

Once a revocation has returned, whatever the store does and wherever it is interrupted, no operation
which asks the state of the backup succeeds.
-/

namespace LawyerAssistance.Backups

open Privacy Lifecycle

/-- The operations which verify, restore or export a backup by its state. -/
def BackupOperation.Asks (backupId : Text) : BackupOperation → Prop
  | .verifyDetached other _ | .restoreDetached _ other _ | .exportBundle other _ => other = backupId
  | .exportDatabase .. | .verify .. | .restore .. | .revoke .. | .importBundle ..
  | .importBundleForRollback .. => False

section Refusals

variable {host : BackupHost} {choices : BackupChoices} {backupId : Text} {root : BackupRoot}
  {context : BackupVerificationExpectation}

/-- A registry in which a backup is revoked verifies none of its contents. -/
theorem ensures_decryptAndVerify {registry : BackupRegistry}
    (revoked : ∀ row, registry.row backupId = some row → row.state = revokedState) :
    (host.decryptAndVerify choices registry backupId context).Ensures BackupRoot.apply root
      fun _ _ => False := by
  refine Script.ensures_lift_bind fun _ _ => Script.ensures_refuse_bind fun _ => ?_
  refine Script.ensures_lift_bind fun _ _ => Script.ensures_lift_bind fun row found => ?_
  exact Script.ensures_refuse_bind fun active =>
    absurd (revoked row (presentOr_eq_ok.mp found)) active

/-- The state of a withdrawn backup is a revoked one in the registry which is made of it. -/
theorem ensures_detachedRegistry (withdrawn : host.Withdrawn backupId root) {γ : Type}
    {next : BackupRegistry → BackupScript γ}
    (refuses : ∀ registry : BackupRegistry, (∀ row, registry.row backupId = some row →
      row.state = revokedState) → (next registry).Ensures BackupRoot.apply root fun _ _ => False) :
    (host.loadBackupState backupId >>= fun state =>
      Script.lift (detachedRegistry state) >>= next).Ensures BackupRoot.apply root
        fun _ _ => False := by
  have loads : (host.loadBackupState backupId).Ensures BackupRoot.apply root fun state final =>
      final = root ∧ state.state = revokedState := by
    refine ⟨(holds_loadBackupState host).imp (fun _ _ given => given) ?_⟩
    rintro result final ⟨rfl, loaded⟩ state ends
    obtain ⟨_, blob, stores, unprotected⟩ := loaded state ends
    obtain ⟨blob', state', stores', unprotected', revoked⟩ := withdrawn
    obtain rfl := Option.some.inj (stores.symm.trans stores')
    obtain rfl := Except.ok.inj (unprotected.symm.trans unprotected')
    exact ⟨rfl, revoked⟩
  refine loads.bind ?_
  rintro state final ⟨rfl, revoked⟩
  refine Script.ensures_lift_bind fun registry detached => refuses registry fun row found => ?_
  obtain ⟨_, _, detached⟩ := bind_eq_ok.mp detached
  obtain ⟨_, _, detached⟩ := bind_eq_ok.mp detached
  obtain ⟨_, _, detached⟩ := bind_eq_ok.mp detached
  obtain ⟨_, _, detached⟩ := bind_eq_ok.mp detached
  cases detached
  have among := List.mem_of_find?_eq_some found
  rw [List.mem_singleton.mp among]
  exact revoked

theorem ensures_verifyDetachedBackup (withdrawn : host.Withdrawn backupId root) :
    (host.verifyDetachedBackup choices backupId context).Ensures BackupRoot.apply root
      fun _ _ => False :=
  ensures_detachedRegistry withdrawn fun _ revoked =>
    (ensures_decryptAndVerify revoked).bind fun _ _ => False.elim

/-- No operation which asks the state of a withdrawn backup succeeds. -/
theorem ensures_script_of_withdrawn (withdrawn : host.Withdrawn backupId root)
    {operation : BackupOperation} (asks : operation.Asks backupId) :
    (operation.script host choices).Ensures BackupRoot.apply root fun _ _ => False := by
  cases operation with
  | verifyDetached other context =>
      cases asks
      exact (ensures_verifyDetachedBackup withdrawn).bind fun _ _ => False.elim
  | restoreDetached destination other context =>
      cases asks
      refine Script.Ensures.bind (ensures_detachedRegistry withdrawn fun _ revoked => ?_)
        fun _ _ => False.elim
      exact Script.ensures_refuse_bind fun _ =>
        (ensures_decryptAndVerify revoked).bind fun _ _ => False.elim
  | exportBundle other context =>
      cases asks
      refine Script.Ensures.bind ?_ fun _ _ => False.elim
      exact (ensures_verifyDetachedBackup withdrawn).bind fun _ _ => False.elim
  | exportDatabase | verify | restore | revoke | importBundle | importBundleForRollback =>
      cases asks

end Refusals

/-- Behind a revocation which has returned, no operation which asks the state of the backup
succeeds, in every later run of the store and whatever is interrupted. -/
theorem revoked_backups_are_refused {host : BackupHost} (ideal : host.platform.Ideal)
    {state revoked final : StoreState} {registry : BackupRegistry} {backupId : Text}
    {revokedAtUnix : UInt64} {choices : BackupChoices} {answers : List Bool}
    (returned : (((BackupOperation.revoke registry backupId revokedAtUnix).script host choices).run
      BackupRoot.apply state.root answers).result = some (.ok ()))
    (step : (storeMachine host).step state
      (.operate (.revoke registry backupId revokedAtUnix) choices answers) = some revoked)
    {events : List StoreEvent} (runs : (storeMachine host).run revoked events = some final)
    {operation : BackupOperation} (asks : operation.Asks backupId) (choices' : BackupChoices)
    (answers' : List Bool) : ((operation.script host choices').run BackupRoot.apply final.root
      answers').result ≠ some (.ok ()) := by
  have withdraws : ((BackupOperation.revoke registry backupId revokedAtUnix).script host
      choices).Ensures BackupRoot.apply state.root fun _ root => host.Withdrawn backupId root :=
    Script.Ensures.bind ⟨(holds_revokeBackup host choices ideal).imp (fun _ _ _ => trivial)
      fun _ _ ends => ends.2⟩ fun _ _ withdrawn => Script.ensures_pure withdrawn
  have withdrawn : host.Withdrawn backupId revoked.root := by
    have ends := withdraws.run returned
    simp only [storeMachine] at step
    split_ifs at step
    cases step
    exact ends
  exact fun succeeds => (ensures_script_of_withdrawn (withdrawn.run ideal runs) asks).run succeeds

/-- The registry with the active backup of the samples. -/
def activeRegistry : BackupRegistry where
  lifecycleSchemaVersion := 1
  workspaceInstanceId := []
  rows := [{
    backupId := sampleId, envelopeSha256 := [], createdAtUnix := 1, expiresAtUnix := 9
    keyEpoch := 1, state := activeState, revokedAtUnix := none }]

/-- The active backup is revoked, and not verified any more. -/
theorem active_backup_is_refused : ∃ (backups : Directory) (answers : List Bool)
    (revoked : StoreState),
    (sampleHost.loadBackupState sampleId).complete BackupRoot.apply ⟨∅, backups⟩ =
      (⟨∅, backups⟩, .ok sampleState) ∧
    (storeMachine sampleHost).step (.fresh backups)
      (.operate (.revoke activeRegistry sampleId 5) sampleChoices answers) = some revoked ∧
    ∀ context choices answers,
      (((BackupOperation.verifyDetached sampleId context).script sampleHost choices).run
        BackupRoot.apply revoked.root answers).result ≠ some (.ok ()) := by
  obtain ⟨backups, revocation, loads, computed⟩ := exists_sampleBackups
  have states : (sampleHost.revokeBackupState sampleChoices sampleId 5).Completes BackupRoot.apply
      ⟨∅, backups⟩ () fun _ => True := by
    have loading : (sampleHost.loadBackupState sampleId).Completes BackupRoot.apply ⟨∅, backups⟩
      sampleState fun root => root = ⟨∅, backups⟩ := ⟨_, loads, rfl⟩
    refine loading.bind fun root same => Script.completes_refuse_bind (by decide) ?_
    rw [if_neg (by decide : sampleState.state ≠ revokedState), same]
    refine Script.completes_refuse_bind (by decide) (Script.completes_lift_bind computed ?_)
    refine Script.completes_lift_bind (Eq.refl (Except.ok (temporaryName sampleId sampleRandom
      "state.tmp".toList))) ?_
    refine (completes_writeNewSafeFile (AList.notMem_empty _)).bind fun _ _ => ?_
    have installs {root : BackupRoot} {effect : BackupEffect} {ε : Type} {error : ε} :
        (Script.perform effect error).Completes BackupRoot.apply root () fun _ => True :=
      Script.completes_perform trivial
    exact installs.settle.bind fun _ _ => installs
  have completes : ((BackupOperation.revoke activeRegistry sampleId 5).script sampleHost
      sampleChoices).Completes BackupRoot.apply ⟨∅, backups⟩ () fun _ => True := by
    refine Script.Completes.bind (Script.completes_lift_bind (Eq.refl (Except.ok ()))
      (Script.completes_refuse_bind (by decide) (states.bind fun _ _ =>
        Script.completes_lift (Eq.refl (Except.ok _)) trivial))) fun _ _ => ?_
    exact Script.completes_pure trivial
  obtain ⟨answers, final, runs, _⟩ := completes.exists_run
  have step : (storeMachine sampleHost).step (.fresh backups) (.operate (.revoke activeRegistry
      sampleId 5) sampleChoices answers) = some ⟨final, true⟩ := by
    rw [storeMachine]
    dsimp only
    rw [if_pos (show (StoreState.fresh backups).running = true from rfl)]
    exact congrArg some (congrArg (fun outcome : Script.Outcome _ _ _ =>
      (⟨outcome.state, outcome.result.isSome⟩ : StoreState)) runs)
  refine ⟨backups, answers, ⟨final, true⟩, loads, step, fun context choices answers' => ?_⟩
  exact revoked_backups_are_refused ideal_samplePlatform (congrArg Script.Outcome.result runs) step
    (Machine.run_nil _ _) (show (BackupOperation.verifyDetached sampleId context).Asks sampleId
      from Eq.refl sampleId) choices answers'

end LawyerAssistance.Backups

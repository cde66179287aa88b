import LawyerAssistance.Backups.Types
import LawyerAssistance.Std.Script
import Mathlib.Data.List.AList

/-!
# Files of a backup root

The directories `.staging` and `backups`, the names which are given to temporary files, and the
scripts which write, move and remove them (`lifecycle_support.rs`). What SQLite does to the files
beside a database which it has open is a list of changes which the environment chooses.
-/

namespace LawyerAssistance.Backups

open Privacy Lifecycle

/-! ## Directories -/

/-- Files by their names, in the order in which a directory is read. -/
abbrev Directory := AList (fun _ : Text => Octets)

/-- The directories of a backup root. -/
structure BackupRoot where
  staging : Directory
  backups : Directory

/-- The effects on the files of a backup root: a new file of `.staging`, its contents, its
removal, its move to `backups` in the place of what is there, and the removal of a file there and
the check of its identity. -/
inductive BackupEffect where
  | create (name : Text)
  | write (name : Text) (bytes : Octets)
  | remove (name : Text)
  | install (name target : Text)
  | uninstall (target : Text)
  | check (target : Text)

/-- What an effect does. -/
def BackupRoot.apply (root : BackupRoot) : BackupEffect → BackupRoot
  | .create name => { root with staging := root.staging.insert name [] }
  | .write name bytes => { root with staging := root.staging.insert name bytes }
  | .remove name => { root with staging := root.staging.erase name }
  | .install name target =>
      match root.staging.lookup name with
      | some bytes =>
          { staging := root.staging.erase name, backups := root.backups.insert target bytes }
      | none => root
  | .uninstall target => { root with backups := root.backups.erase target }
  | .check _ => root

/-- Scripts on a backup root. -/
abbrev BackupScript := Script BackupRoot BackupEffect LifecycleError

/-! ## Names -/

/-- Random bytes of a name. -/
abbrev NameRandom := FixedOctets 8

/-- The name of a temporary file of a backup, as `temporary_path` writes it. -/
def temporaryName (backupId : Text) (random : NameRandom) (suffix : Text) : Text :=
  backupId ++ '-' :: hexLower random.1 ++ '-' :: suffix

/-- `temporary_path`. -/
def temporaryPath (backupId : Text) (random : NameRandom) (suffix : Text) :
    Except LifecycleError Text := do
  checkOpaqueId backupId "bkp_".toList
  refuseIf (suffix = [] ∨
    suffix.any (fun character => !(character.isAlphanum || character == '.')) = true) .invalidInput
  pure (temporaryName backupId random suffix)

/-- The name of the copy which `verify_sqlite_snapshot_bytes` writes. -/
def verifyName (backupId : Text) (random : NameRandom) : Text :=
  backupId ++ "-verify-".toList ++ hexLower random.1 ++ ".sqlite".toList

/-- The name of the file which `write_atomic_new_file` moves. -/
def writeName (backupId : Text) (random : NameRandom) : Text :=
  backupId ++ "-write-".toList ++ hexLower random.1 ++ ".tmp".toList

/-- `backup_path`, in `backups`. -/
def backupName (backupId : Text) : Text := backupId ++ ".lavbackup".toList

/-- `backup_state_path`, in `backups`. -/
def backupStateName (backupId : Text) : Text := backupId ++ ".state.dpapi".toList

/-- A file which SQLite has beside a database. -/
inductive Sidecar where
  | journal
  | wal
  | shm
  deriving DecidableEq

/-- What is behind the name of the database in the name of a file beside it. -/
def Sidecar.suffix : Sidecar → Text
  | .journal => "-journal".toList
  | .wal => "-wal".toList
  | .shm => "-shm".toList

/-- A change which SQLite makes beside a database. -/
structure SidecarChange where
  sidecar : Sidecar
  present : Bool

/-! ## Recognition -/

/-- `is_lower_hex_exact`. -/
def isLowerHexExact (value : Text) (expectedLength : Nat) : Bool :=
  value.length == expectedLength && value.all isLowerHex

/-- `has_random_suffix`. -/
def hasRandomSuffix (value suffix : Text) : Bool :=
  value.length == 16 + suffix.length && isLowerHexExact (value.take 16) 16 &&
    value.drop 16 == suffix

/-- A name without the suffix of a file beside a database. -/
def withoutSidecar (fileName : Text) : Text :=
  ((["-journal", "-wal", "-shm"].map String.toList).findSome? fun suffix =>
    suffix.isSuffixOf? fileName).getD fileName

/-- A text behind another, when it has one of some endings behind random digits. -/
def hasTail (start : Text) (endings : List Text) (tail : Text) : Bool :=
  match start.isPrefixOf? tail with
  | some value => endings.any (hasRandomSuffix value)
  | none => false

/-- `is_exact_backup_staging_name`. -/
def isExactBackupStagingName (fileName : Text) : Bool :=
  fileName.all (fun character => decide (character.toNat < 128)) &&
    match "bkp_".toList.isPrefixOf? (withoutSidecar fileName) with
    | some afterPrefix =>
        decide (32 ≤ afterPrefix.length) && isLowerHexExact (afterPrefix.take 32) 32 &&
          (hasTail "-".toList ["-sqlite".toList, "-restore.sqlite".toList] (afterPrefix.drop 32) ||
            hasTail "-verify-".toList [".sqlite".toList] (afterPrefix.drop 32) ||
            hasTail "-write-".toList [".tmp".toList] (afterPrefix.drop 32))
    | none => false

/-- `cleanup_stale_backup_staging`, for the entries of the directory. -/
def cleanupStaleEntries : List Text → BackupScript Unit
  | [] => pure ()
  | name :: rest => do
      Script.refuse (isExactBackupStagingName name = false) .unsafeFilesystem
      Script.perform (.remove name) .io
      cleanupStaleEntries rest

/-- `EncryptedPrivacyBackupStore::open` and `initialize`, as far as they read `.staging`. -/
def openStore : BackupScript Unit := do
  let root ← Script.current
  cleanupStaleEntries root.staging.keys

/-! ## Files -/

/-- `write_new_safe_file`. -/
def writeNewSafeFile (name : Text) (bytes : Octets) : BackupScript Unit := do
  let root ← Script.current
  Script.refuse (name ∈ root.staging) .io
  Script.perform (.create name) .io
  Script.perform (.write name bytes) .io

/-- A temporary file is removed when it is there. -/
def removeSafeTemporary (name : Text) : BackupScript Unit := do
  let root ← Script.current
  if name ∈ root.staging then Script.perform (.remove name) .io else pure ()

/-- `remove_sensitive_sqlite_temporary`. -/
def removeSensitiveSqliteTemporary (path : Text) : BackupScript Unit := do
  removeSafeTemporary path
  removeSafeTemporary (path ++ Sidecar.journal.suffix)
  removeSafeTemporary (path ++ Sidecar.wal.suffix)
  removeSafeTemporary (path ++ Sidecar.shm.suffix)

/-- `finish_sensitive_temporary`. -/
def finishSensitiveTemporary {α : Type} (path : Text) (result : Except LifecycleError α) :
    BackupScript α := do
  removeSensitiveSqliteTemporary path
  Script.lift result

/-- `write_atomic_new_file`. -/
def writeAtomicNewFile (target : Text) (bytes : Octets) (backupId : Text) (random : NameRandom) :
    BackupScript Unit := do
  let root ← Script.current
  Script.refuse (target ∈ root.backups) .conflict
  writeNewSafeFile (writeName backupId random) bytes
  match ← Script.settle (Script.perform (.install (writeName backupId random) target) ()) with
  | .ok () => Script.perform (.check target) .unsafeFilesystem
  | .error () => finishSensitiveTemporary (writeName backupId random) (.error .io)

/-- `read_safe_file`, of what a name stands for. -/
def readSafeFile (found : Option Octets) (maxBytes : Nat) : Except LifecycleError Octets := do
  let bytes ← presentOr found .backupNotAvailable
  refuseIf (bytes = [] ∨ maxBytes < bytes.length) .backupInvalid
  pure bytes

/-- What SQLite does beside a database while it has it open. -/
def sqliteActivity (path : Text) : List SidecarChange → BackupScript Unit
  | [] => pure ()
  | change :: rest => do
      if change.present then Script.tryPerform (.create (path ++ change.sidecar.suffix))
      else Script.tryPerform (.remove (path ++ change.sidecar.suffix))
      sqliteActivity path rest

end LawyerAssistance.Backups

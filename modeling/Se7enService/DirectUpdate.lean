import Se7enService.LauncherPayloads
import Se7enService.PlatformAgreement
import Se7enService.ReservedCleanup
import Se7enService.StepPair
set_option autoImplicit false

/-! `direct_update.rs`: a launcher that updates itself without the service. The jobs are
below the launcher's own root, and single files are replaced by one call. -/

namespace Se7en.Direct
open Faulty

/-! ### Names below the root -/

/-- The directories above a leaf, which are created where they are missing. -/
def lockParents (root : RegisteredRoot) (current : TargetPath) : List Name → JobProg Unit
  | [] => pure ()
  | component :: rest => do
    match ← look (·.target root.canonicalPath (current ++ [component])) with
    | some .directory => lockParents root (current ++ [component]) rest
    | some .reparse => throw Windows.reparseError
    | some (.file _) =>
      throw (.new .rootIdentity "opened directory handle is not a stable directory")
    | none =>
      let fault := MaintenanceError.new .transactionIo "target parent directory cannot be created"
      ((createDirectory root.canonicalPath (current ++ [component])).unless (fun _ => false)
        fault).run
      lockParents root (current ++ [component]) rest

/-- `locked_leaf` of a target. -/
def lockedTarget (root : RegisteredRoot) (path : String) : JobProg Unit := do
  let components ← lift (Windows.relativeComponents path)
  lockParents root [] components.dropLast

/-- `locked_leaf` of a file that waits in the directory of a job. -/
def lockedSource (root : RegisteredRoot) (jobId : String) : JobProg Unit := do
  if ← look fun d => (d.reserved root.canonicalPath jobId).isNone then
    throw (.new .rootIdentity "atomic update parent is absent")

/-- `locked_leaf` of a backup. -/
def lockedBackup (root : RegisteredRoot) (jobId : String) : JobProg Unit :=
  ((createReservedLeaf root.canonicalPath jobId).unless (fun _ => false)
    (.new .transactionIo "target parent directory cannot be created")).run

def unsafePayload : MaintenanceError :=
  .new .rootIdentity "opened payload is not a stable single-link regular file"

def openSource (root : RegisteredRoot) (jobId : String) (leaf : Leaf) (index : UInt32) :
    JobProg Unit := do
  match ← look fun d => match leaf with
    | .prepared => d.prepared root.canonicalPath jobId index
    | .backup => d.backup root.canonicalPath jobId index with
  | none => throw (.new .transactionIo "atomic source cannot be opened")
  | some file => if file.links ≠ 1 then throw unsafePayload

def openTarget (root : RegisteredRoot) (path : String) : JobProg Unit := do
  match ← look (·.target root.canonicalPath (targetPath path)) with
  | none | some .directory => throw (.new .transactionIo "atomic target cannot be opened")
  | some .reparse => throw Windows.reparseError
  | some (.file file) => if file.links ≠ 1 then throw unsafePayload

/-- `open_relative_file` on the target of a rename, where a file is in the way of it. -/
def openFreeTarget (root : RegisteredRoot) (path : String) : JobProg Unit := do
  match ← look (·.target root.canonicalPath (targetPath path)) with
  | none => pure ()
  | some .directory =>
    throw (.new .transactionIo "file handle cannot be opened under the locked root")
  | some .reparse => throw Windows.reparseError
  | some (.file file) => if file.links ≠ 1 then throw unsafePayload

/-! ### The two calls -/

/-- What a name is freed by: its file is kept as the backup, or deleted. -/
def freeTarget (root : RegisteredRoot) (jobId : String) (leaf : Leaf) (index : UInt32)
    (path : String) : JobStep :=
  match leaf with
  | .prepared => renameToBackup root.canonicalPath jobId index (targetPath path)
  | .backup => removeTargetFile root.canonicalPath jobId (targetPath path) transactionIo

/-- What takes a free name. -/
def takeTarget (root : RegisteredRoot) (jobId : String) (leaf : Leaf) (index : UInt32)
    (path : String) : JobStep :=
  match leaf with
  | .prepared => renamePrepared root.canonicalPath jobId index (targetPath path)
  | .backup => renameBackup root.canonicalPath jobId index (targetPath path)

/-- `ReplaceFileW`, which frees the name of the target and gives it to the source. Some of its
errors leave the name free; `splits` tells whether they are met. -/
def replaceFile (splits : Bool) (root : RegisteredRoot) (jobId : String) (leaf : Leaf)
    (index : UInt32) (path : String) : JobStep :=
  (freeTarget root jobId leaf index path).followedBy (takeTarget root jobId leaf index path)
    (.new .transactionIo "direct atomic replacement failed") splits

/-- `MoveFileExW` without `MOVEFILE_REPLACE_EXISTING`. -/
def moveFile (root : RegisteredRoot) (jobId : String) (leaf : Leaf) (index : UInt32)
    (path : String) : JobStep :=
  (takeTarget root jobId leaf index path).unless
    (fun d => (d.target root.canonicalPath (targetPath path)).isSome)
    (.new .transactionIo "direct atomic rename failed")

/-- A prepared file replaces its target with a backup, and a backup replaces it without one. -/
def replaceAtomic (splits : Bool) (root : RegisteredRoot) (jobId : String) (leaf : Leaf)
    (index : UInt32) (path : String) : JobProg Unit := do
  lockedSource root jobId
  lockedTarget root path
  if leaf = .prepared then
    lockedBackup root jobId
    if ← look fun d => (d.backup root.canonicalPath jobId index).isSome then
      throw (.new .transactionConflict "direct update backup already exists")
  openSource root jobId leaf index
  openTarget root path
  (replaceFile splits root jobId leaf index path).run

def moveAtomic (root : RegisteredRoot) (jobId : String) (leaf : Leaf) (index : UInt32)
    (path : String) : JobProg Unit := do
  lockedSource root jobId
  lockedTarget root path
  openSource root jobId leaf index
  openFreeTarget root path
  (moveFile root jobId leaf index path).run

/-! ### The platform -/

structure DirectPlatform where
  root : RegisteredRoot
  launcher : String
  /-- The metadata of the files that `inner` creates. -/
  stamp : Stamp
  /-- `ReplaceFileW` may leave the name of its target free. -/
  splits : Bool

namespace DirectPlatform

variable [Sha256] (self : DirectPlatform)

def inner : TransactionPlatform := .localPlatform self.stamp

def bound (root : RegisteredRoot) (d : Disk) : Result Unit := do
  if root ≠ self.root then
    throw (.new .rootIdentity "direct journal belongs to another root")
  self.inner.verifyRootIdentity root d

def target (root : RegisteredRoot) (path : String) (d : Disk) : Result Unit := do
  self.bound root d
  if !pathAllowed path self.launcher then
    throw (.new .fileSetPath "direct journal path is not allowed")

def atomicReplaceTarget (root : RegisteredRoot) (jobId : String) (index : UInt32) (path : String)
    (original : Option TargetSnapshot) : JobProg Bool := do
  inspect (self.target root path)
  if (← inspect (self.inner.inspectTarget root path)) ≠ original then
    throw (.new .rootIdentity "direct target changed before replacement")
  if original.isSome then
    replaceAtomic self.splits root jobId .prepared index path
  else
    moveAtomic root jobId .prepared index path
  pure true

def atomicRestoreBackup (root : RegisteredRoot) (jobId : String) (index : UInt32)
    (path : String) : JobProg Bool := do
  inspect (self.target root path)
  if (← inspect (self.inner.inspectTarget root path)).isSome then
    replaceAtomic self.splits root jobId .backup index path
  else
    moveAtomic root jobId .backup index path
  pure true

def platform : TransactionPlatform where
  verifyRootIdentity := self.bound
  rootIsMissing _ _ := false
  privateSpace := self.inner.privateSpace
  rootSpace := self.inner.rootSpace
  sameVolume := self.inner.sameVolume
  inspectTarget root path d := do
    self.target root path d
    self.inner.inspectTarget root path d
  prepareTargetPayload root jobId index entry := do
    inspect (self.target root entry.path)
    self.inner.prepareTargetPayload root jobId index entry
  backupExists root jobId index d := do
    self.bound root d
    self.inner.backupExists root jobId index d
  deleteTarget root jobId path := do
    inspect (self.target root path)
    self.inner.deleteTarget root jobId path
  cleanupJob root jobId := do
    inspect (self.bound root)
    self.inner.cleanupJob root jobId

end DirectPlatform

/-! ### One helper -/

structure DirectContext extends DirectPlatform where
  rejection : MutationEvent → MaintenanceError
  medium : Medium

namespace DirectContext

variable [Sha256] (context : DirectContext)

def policy : Policy where
  usesAtomicReplacement := true
  atomicReplaceTarget := context.toDirectPlatform.atomicReplaceTarget
  atomicRestoreBackup := context.toDirectPlatform.atomicRestoreBackup
  rejection := context.rejection
  medium := context.medium

def openJobs : JobStep where
  effect d := .ok ((), d)
  fault := .new .rootIdentity "directory handle cannot be opened without reparse traversal"

/-- The first three entries of the jobs directory. -/
def countJobs : Step Disk MaintenanceError Nat where
  effect d := .ok (((d.jobs.getD []).take 3).length, d)
  fault := recoveryError "direct update jobs cannot be enumerated"

/-- `fs::remove_dir`, which refuses a directory with entries. -/
def removeJobs : JobStep where
  effect d := match d.jobs with
    | some [] => .ok ((), { d with jobs := none })
    | _ => .error transactionIo
  fault := transactionIo

def trimEmptyJobs : JobProg Unit := do
  let _ ← attempt removeJobs.run

section Recovery

variable [Unicode] [Deserialize JournalHeader] [Deserialize JournalStateRecord]

def recovery : JobProg Unit := do
  if ← look (·.jobs.isSome) then
    openJobs.run
    if (← countJobs.run) > 2 then
      throw (recoveryError "too many direct update jobs")
  let _ ← context.toDirectPlatform.platform.recoverIncompleteWithPolicy context.policy
  trimEmptyJobs

/-- `PreparedDirectUpdate::commit`. -/
def commit (prepared : PreparedJob) : JobProg CommitResult := do
  let result ← attempt (context.toDirectPlatform.platform.commitFileSet prepared)
  match result with
  | .ok _ => pure ()
  | .error _ =>
    match ← attempt context.recovery with
    | .ok () => pure ()
    | .error _ => throw (recoveryError "direct update rollback could not be completed")
  trimEmptyJobs
  lift result

/-- `PreparedDirectUpdate::cancel`. -/
def cancel : JobProg Unit := context.recovery

end Recovery

end DirectContext

end Se7en.Direct

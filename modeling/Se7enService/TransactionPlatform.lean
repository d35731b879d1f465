import Se7enService.Agreement
import Se7enService.Transaction
set_option autoImplicit false

/-! `transaction.rs` over any platform. The operations of `Transaction` are the defaults of
the trait, and the programs there are the ones of the local platform. -/

namespace Se7en
open Faulty

/-- `local_prepare_target_payload`, with the metadata that the new file gets. -/
def localPrepareTargetPayload [Sha256] (stamp : Stamp) (root : RegisteredRoot) (jobId : String)
    (index : Nat) (entry : FileEntry) : JobProg Unit := do
  ensureReservedLeafDirectory root jobId
  match ← look fun d => d.directory jobId >>= (·.payload index) with
  | none => throw transactionIo
  | some payload =>
    let (written, verdict) := copyReaderVerified [payload] entry
    let (identity, lastWriteTime) := stamp jobId (UInt32.ofNat index)
    (storePrepared root.canonicalPath jobId (UInt32.ofNat index)
      { content := written, identity, lastWriteTime, links := 1, origin := .existing }).run
    lift verdict

/-- The trait without the atomic operations, which the policy holds. The job of a deleted
target is there for the history. -/
structure TransactionPlatform where
  verifyRootIdentity : RegisteredRoot → Disk → Result Unit :=
    fun root d => localVerifyRootIdentity d root
  rootIsMissing : RegisteredRoot → Disk → Bool := fun root d => localRootIsMissing d root
  privateSpace : Result UInt64 := .ok (UInt64.ofNat (UInt64.size - 1))
  rootSpace : Result UInt64 := .ok (UInt64.ofNat (UInt64.size - 1))
  sameVolume : Result Bool := .ok true
  inspectTarget : RegisteredRoot → String → Disk → Result (Option TargetSnapshot) :=
    fun root path d => localInspectTarget d root path
  prepareTargetPayload : RegisteredRoot → String → Nat → FileEntry → JobProg Unit
  renameTargetToBackup : RegisteredRoot → String → UInt32 → String → TargetSnapshot →
    JobProg Unit := localRenameTargetToBackup
  renamePreparedToTarget : RegisteredRoot → String → UInt32 → String → JobProg Unit :=
    localRenamePreparedToTarget
  backupExists : RegisteredRoot → String → UInt32 → Disk → Result Bool := localBackupExists
  deleteTarget : RegisteredRoot → String → String → JobProg Unit := localDeleteTarget
  restoreBackup : RegisteredRoot → String → UInt32 → String → JobProg Unit := localRestoreBackup
  cleanupJob : RegisteredRoot → String → JobProg Unit := localCleanupJob

namespace TransactionPlatform

def localPlatform [Sha256] (stamp : Stamp) : TransactionPlatform where
  prepareTargetPayload := localPrepareTargetPayload stamp

variable (platform : TransactionPlatform)

def targetExists (root : RegisteredRoot) (path : String) (d : Disk) : Result Bool := do
  pure (← platform.inspectTarget root path d).isSome

def cleanupPreparedJob (prepared : PreparedJob) : JobProg Unit :=
  runMutation prepared.policy .cleanupJob none
    (platform.cleanupJob prepared.header.root prepared.header.jobId)

/-! ### Commit -/

def verifyOriginalSnapshots (prepared : PreparedJob) : List JournalEntry → JobProg Unit
  | [] => pure ()
  | entry :: entries => do
    let current ← inspect (platform.inspectTarget prepared.header.root entry.path)
    if current ≠ entry.original then
      throw (.new .rootIdentity "target identity changed between prepare and commit")
    verifyOriginalSnapshots prepared entries

def backUpTarget (prepared : PreparedJob) (entry : JournalEntry) : JobProg Unit :=
  match entry.original with
  | none => pure ()
  | some original =>
    runMutation prepared.policy .renameTargetToBackup (some entry.path)
      (platform.renameTargetToBackup prepared.header.root prepared.header.jobId
        entry.transactionIndex entry.path original)

def installPrepared (prepared : PreparedJob) (entry : JournalEntry) : JobProg Unit :=
  if entry.action = .replace then
    match entry.preparedIndex with
    | none =>
      throw (.new .transactionState "replacement journal entry has no prepared index")
    | some index =>
      runMutation prepared.policy .renamePreparedToTarget (some entry.path)
        (platform.renamePreparedToTarget prepared.header.root prepared.header.jobId index entry.path)
  else pure ()

def applyEntry (prepared : PreparedJob) (entry : JournalEntry) : JobProg Unit :=
  if entry.action = .replace && prepared.policy.usesAtomicReplacement then
    runMutation prepared.policy .atomicReplaceTarget (some entry.path) do
      if !(← prepared.policy.atomicReplaceTarget prepared.header.root prepared.header.jobId
          entry.transactionIndex entry.path entry.original) then
        throw (.new .transactionState "atomic replacement platform refused its operation")
  else do
    platform.backUpTarget prepared entry
    platform.installPrepared prepared entry

def applyEntries (prepared : PreparedJob) : List JournalEntry → JobProg Unit
  | [] => pure ()
  | entry :: entries => do
    platform.applyEntry prepared entry
    applyEntries prepared entries

def deleteExisting (prepared : PreparedJob) (entry : JournalEntry) : JobProg Unit := do
  if ← inspect (platform.targetExists prepared.header.root entry.path) then
    runMutation prepared.policy .deleteTarget (some entry.path)
      (platform.deleteTarget prepared.header.root prepared.header.jobId entry.path)

def restoreEntry (prepared : PreparedJob) (entry : JournalEntry) : JobProg Unit :=
  if prepared.policy.usesAtomicReplacement then
    runMutation prepared.policy .atomicRestoreBackup (some entry.path) do
      if !(← prepared.policy.atomicRestoreBackup prepared.header.root prepared.header.jobId
          entry.transactionIndex entry.path) then
        throw (.new .transactionState "atomic rollback platform refused its operation")
  else do
    platform.deleteExisting prepared entry
    runMutation prepared.policy .restoreBackup (some entry.path)
      (platform.restoreBackup prepared.header.root prepared.header.jobId entry.transactionIndex
        entry.path)

def rollbackEntry (prepared : PreparedJob) (entry : JournalEntry) : JobProg Unit :=
  match entry.original with
  | some _ => do
    if ← inspect (platform.backupExists prepared.header.root prepared.header.jobId
        entry.transactionIndex) then
      platform.restoreEntry prepared entry
  | none => platform.deleteExisting prepared entry

def rollbackReversed (prepared : PreparedJob) : List JournalEntry → JobProg Unit
  | [] => pure ()
  | entry :: entries => do
    platform.rollbackEntry prepared entry
    rollbackReversed prepared entries

def rollbackEntries (prepared : PreparedJob) : JobProg Unit := do
  inspect (platform.verifyRootIdentity prepared.header.root)
  platform.rollbackReversed prepared prepared.header.entries.reverse

def rollBack (prepared : PreparedJob) (error : MaintenanceError) (incomplete : String) :
    JobProg CommitResult := do
  let _ ← attempt (appendState prepared .rollingBack)
  match ← attempt (do
    platform.rollbackEntries prepared
    platform.cleanupPreparedJob prepared) with
  | .error _ => throw (recoveryError incomplete)
  | .ok () => throw error

def commitFileSet (prepared : PreparedJob) : JobProg CommitResult := do
  inspect (platform.verifyRootIdentity prepared.header.root)
  platform.verifyOriginalSnapshots prepared prepared.header.entries
  appendState prepared .committing
  match ← attempt (platform.applyEntries prepared prepared.header.entries) with
  | .error commitError =>
    platform.rollBack prepared commitError
      "commit failed and rollback must be resumed by recovery"
  | .ok () =>
    match ← attempt (appendState prepared .committed) with
    | .error _ =>
      platform.rollBack prepared
        (.new .transactionIo "committed journal state could not be persisted")
        "journal commit failed and rollback must be resumed by recovery"
    | .ok () =>
      let cleanup ← attempt (platform.cleanupPreparedJob prepared)
      pure {
        jobId := prepared.header.jobId
        generation := prepared.header.generation
        cleanupPending := match cleanup with
          | .ok () => false
          | .error _ => true }

/-! ### Recovery -/

section Recovery

variable [Unicode] [Deserialize JournalHeader] [Deserialize JournalStateRecord]

def recoverState (prepared : PreparedJob) (state : JournalState) (result : RecoveryResult) :
    JobProg RecoveryResult := do
  let jobId := prepared.header.jobId
  match state with
  | .prepared =>
    platform.cleanupPreparedJob prepared
    pure { result with discardedPreparedJobs := result.discardedPreparedJobs ++ [jobId] }
  | .committing =>
    appendState prepared .rollingBack
    platform.rollbackEntries prepared
    platform.cleanupPreparedJob prepared
    pure { result with rolledBackJobs := result.rolledBackJobs ++ [jobId] }
  | .rollingBack =>
    platform.rollbackEntries prepared
    platform.cleanupPreparedJob prepared
    pure { result with rolledBackJobs := result.rolledBackJobs ++ [jobId] }
  | .committed =>
    platform.cleanupPreparedJob prepared
    pure { result with committedJobs := result.committedJobs ++ [jobId] }

def recoverJournal (policy : Policy) (name : String) (journal : Bytes) (result : RecoveryResult) :
    JobProg RecoveryResult := do
  let (header, state) ← lift (readJournal journal)
  if name ≠ header.jobId then
    throw (recoveryError "transaction directory does not match journal job ID")
  let prepared : PreparedJob := { header, policy }
  match ← look (platform.verifyRootIdentity header.root) with
  | .error identityError =>
    if state = .prepared && (← look (platform.rootIsMissing header.root)) then
      cleanupPrivatePreparedJob prepared
      pure { result with
        discardedPreparedJobs := result.discardedPreparedJobs ++ [header.jobId] }
    else throw identityError
  | .ok () => platform.recoverState prepared state result

def recoverDirectory (policy : Policy) (name : String) (result : RecoveryResult) :
    JobProg RecoveryResult := do
  match ← look (·.directory name) with
  | none =>
    throw (recoveryError "unexpected entry exists in the private jobs directory")
  | some directory =>
    match directory.journal with
    | none =>
      (removeJob name).run
      pure { result with discardedPreparedJobs := result.discardedPreparedJobs ++ [name] }
    | some journal => platform.recoverJournal policy name journal result

def recoverDirectories (policy : Policy) : List String → RecoveryResult → JobProg RecoveryResult
  | [], result => pure result
  | name :: names, result => do
    recoverDirectories policy names (← platform.recoverDirectory policy name result)

def recoverIncompleteWithPolicy (policy : Policy) : JobProg RecoveryResult := do
  match ← look (·.jobs) with
  | none => pure {}
  | some names => platform.recoverDirectories policy (names.insertionSort (· ≤ ·)) {}

end Recovery

/-! ### Prepare -/

section Prepare

variable [Unicode] [Sha256]

def ensureAvailableSpace (required : UInt64) : Result Unit := do
  let insufficient := MaintenanceError.new .insufficientSpace
    "private staging or registered root has insufficient free space"
  if ← platform.sameVolume then
    rejectIf (UInt64.size ≤ 2 * required.toNat)
      (.new .insufficientSpace "same-volume staging requirement overflowed")
    rejectIf ((← platform.privateSpace).toNat < 2 * required.toNat) insufficient
  else
    rejectIf ((← platform.privateSpace) < required) insufficient
    rejectIf ((← platform.rootSpace) < required) insufficient

def inspectFiles (root : RegisteredRoot) : List (FileEntry × Nat) → JobProg (List JournalEntry)
  | [] => pure []
  | (entry, index) :: entries => do
    let original ← inspect (platform.inspectTarget root entry.path)
    let rest ← inspectFiles root entries
    pure ({ action := .replace, original, path := entry.path
            preparedIndex := some (UInt32.ofNat index)
            transactionIndex := UInt32.ofNat index } :: rest)

def inspectRemovals (root : RegisteredRoot) (offset : Nat) :
    List (String × Nat) → JobProg (List JournalEntry)
  | [] => pure []
  | (path, index) :: paths => do
    let original ← inspect (platform.inspectTarget root path)
    let rest ← inspectRemovals root offset paths
    pure ({ action := .remove, original, path, preparedIndex := none
            transactionIndex := UInt32.ofNat (offset + index) } :: rest)

def prepareTargets (root : RegisteredRoot) (jobId : String) :
    List (FileEntry × Nat) → JobProg Unit
  | [] => pure ()
  | (entry, index) :: entries => do
    platform.prepareTargetPayload root jobId index entry
    prepareTargets root jobId entries

def prepareJobContents (manifest : VerifiedFileSet) (root : RegisteredRoot) (staging : Staging)
    (policy : Policy) (jobId : String) : JobProg JournalHeader := do
  copyPayloads jobId staging manifest.fileSet.files.zipIdx
  let files ← platform.inspectFiles root manifest.fileSet.files.zipIdx
  let removals ← platform.inspectRemovals root manifest.fileSet.files.length
    manifest.fileSet.removeFiles.zipIdx
  let header : JournalHeader := {
    entries := files ++ removals
    generation := manifest.fileSet.generation
    jobId
    manifestDigest := encodeHex manifest.digest.toList
    root
    schema := journalSchema }
  (writeNewJournal policy.medium jobId header).run
  platform.prepareTargets root jobId manifest.fileSet.files.zipIdx
  pure header

def prepareFileSet (manifest : VerifiedFileSet) (root : RegisteredRoot) (stagingIsAbsolute : Bool)
    (staging : Staging) (policy : Policy) : JobProg PreparedJob := do
  inspect (platform.verifyRootIdentity root)
  if manifest.fileSet.productId ≠ root.productId then
    throw (.new .productMismatch "verified file set belongs to another registered product")
  if !stagingIsAbsolute then
    throw (.new .stagingInvalid "staging directory must be absolute")
  match declaredSize manifest.fileSet.files 0 with
  | none => throw (.new .insufficientSpace "declared payload size overflowed")
  | some required =>
    lift (platform.ensureAvailableSpace required)
    let jobId := jobIdOf root manifest
    createJobs.run
    (createJob jobId
      (.new .transactionConflict "a transaction with this manifest already exists")).run
    createPayloads.run
    match ← attempt (platform.prepareJobContents manifest root staging policy jobId) with
    | .ok header => pure { header, policy }
    | .error error =>
      let _ ← attempt (platform.cleanupJob root jobId)
      throw error

end Prepare

end TransactionPlatform

end Se7en

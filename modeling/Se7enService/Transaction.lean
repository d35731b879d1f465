import Se7enService.Disk
import Se7enService.FileSet
set_option autoImplicit false

/-! `prepare_file_set`, `commit_file_set` and `recover_incomplete_with_policy` of
`transaction.rs` over the local operations of a platform. -/

namespace Se7en
open Faulty

/-- What differs between platforms here: whether single files are replaced atomically,
the two atomic operations, and the error of a rejected checkpoint. -/
structure Policy where
  usesAtomicReplacement : Bool
  atomicReplaceTarget : RegisteredRoot → String → UInt32 → String → Option TargetSnapshot →
    JobProg Bool
  atomicRestoreBackup : RegisteredRoot → String → UInt32 → String → JobProg Bool
  rejection : MutationEvent → MaintenanceError
  medium : Medium

structure PreparedJob where
  header : JournalHeader
  policy : Policy

structure CommitResult where
  jobId : String
  generation : UInt64
  cleanupPending : Bool
  deriving DecidableEq, Repr

structure RecoveryResult where
  discardedPreparedJobs : List String := []
  rolledBackJobs : List String := []
  committedJobs : List String := []
  deriving DecidableEq, Repr

/-! ### Paths -/

def targetPath (path : String) : TargetPath := split '/' path.toList

/-- The walk of `checked_descendant`, which stops at the first missing component. -/
def reparseOnWay (node : TargetPath → Option Node) (current : TargetPath) : List Name → Bool
  | [] => false
  | component :: rest =>
    match node (current ++ [component]) with
    | none => false
    | some .reparse => true
    | some _ => reparseOnWay node (current ++ [component]) rest

def localVerifyRootIdentity (d : Disk) (root : RegisteredRoot) : Result Unit :=
  match (d.root root.canonicalPath).entry with
  | none => .error (.new .rootIdentity "registered root cannot be reopened")
  | some entry =>
    if entry.canonical ≠ root.canonicalPath then
      .error (.new .rootIdentity "registered root canonical path changed")
    else if entry.reparse || entry.identity ≠ root.identity then
      .error (.new .rootIdentity "registered root identity or reparse status changed")
    else .ok ()

def localRootIsMissing (d : Disk) (root : RegisteredRoot) : Bool :=
  (d.root root.canonicalPath).entry.isNone

def unsafeFile (code : ErrorCode) : MaintenanceError :=
  .new code "file is not a safe single-link regular file"

def localInspectTarget (d : Disk) (root : RegisteredRoot) (path : String) :
    Result (Option TargetSnapshot) := do
  validateRelativePath path
  if reparseOnWay (d.root root.canonicalPath).node [] (targetPath path) then
    throw (.new .rootIdentity "path traversal encountered a reparse point")
  match d.target root.canonicalPath (targetPath path) with
  | none => pure none
  | some (.file file) =>
    if file.links > 1 then throw (unsafeFile .rootIdentity)
    pure (some file.snapshot)
  | some _ => throw (unsafeFile .rootIdentity)

/-- Look at the disk with a check that can fail. -/
def inspect {α : Type} (check : Disk → Result α) : JobProg α := do
  lift (← look check)

def validateReservedJobDirectory (jobId : String) : Result Unit :=
  if validInternalJobId jobId then .ok ()
  else .error (recoveryError "transaction job ID is invalid")

def localBackupExists (root : RegisteredRoot) (jobId : String) (index : UInt32) (d : Disk) :
    Result Bool := do
  validateReservedJobDirectory jobId
  match d.backup root.canonicalPath jobId index with
  | none => pure false
  | some file =>
    if file.links > 1 then throw (unsafeFile .rootIdentity)
    pure true

def targetExists (root : RegisteredRoot) (path : String) (d : Disk) : Result Bool := do
  pure (← localInspectTarget d root path).isSome

/-! ### Mutations -/

def checkpoint (policy : Policy) (event : MutationEvent) : JobProg Unit :=
  Step.run { effect := fun d => .ok ((), d), fault := policy.rejection event }

def runMutation (policy : Policy) (kind : MutationKind) (path : Option String)
    (operation : JobProg Unit) : JobProg Unit := do
  checkpoint policy { boundary := .before, kind, path }
  operation
  checkpoint policy { boundary := .after, kind, path }

def ensureReservedLeafDirectory (root : RegisteredRoot) (jobId : String) : JobProg Unit := do
  if !validInternalJobId jobId then
    throw (.new .transactionState "reserved transaction path is invalid")
  (createReservedLeaf root.canonicalPath jobId).run

def ensureParents (root : RegisteredRoot) (current : TargetPath) : List Name → JobProg Unit
  | [] => pure ()
  | component :: rest => do
    match ← look (·.target root.canonicalPath (current ++ [component])) with
    | some .directory => ensureParents root (current ++ [component]) rest
    | some _ => throw (.new .rootIdentity "target parent contains an unsafe component")
    | none =>
      (createDirectory root.canonicalPath (current ++ [component])).run
      ensureParents root (current ++ [component]) rest

def ensureTargetParent (root : RegisteredRoot) (path : String) : JobProg Unit := do
  lift (validateRelativePath path)
  ensureParents root [] (targetPath path).dropLast

def localRenameTargetToBackup (root : RegisteredRoot) (jobId : String) (index : UInt32)
    (path : String) (expected : TargetSnapshot) : JobProg Unit := do
  if (← inspect fun d => localInspectTarget d root path) ≠ some expected then
    throw (.new .rootIdentity "target identity changed before backup rename")
  ensureReservedLeafDirectory root jobId
  if ← look fun d => (d.backup root.canonicalPath jobId index).isSome then
    throw (.new .transactionConflict "transaction backup already exists")
  (renameToBackup root.canonicalPath jobId index (targetPath path)).run

def localRenamePreparedToTarget (root : RegisteredRoot) (jobId : String) (index : UInt32)
    (path : String) : JobProg Unit := do
  if (← inspect fun d => localInspectTarget d root path).isSome then
    throw (.new .transactionConflict "target exists before prepared rename")
  match ← look (·.prepared root.canonicalPath jobId index) with
  | none => throw transactionIo
  | some file =>
    if file.links > 1 then throw (unsafeFile .rootIdentity)
    ensureTargetParent root path
    (renamePrepared root.canonicalPath jobId index (targetPath path)).run

def localDeleteTarget (root : RegisteredRoot) (jobId path : String) : JobProg Unit := do
  if (← inspect fun d => localInspectTarget d root path).isSome then
    (removeTargetFile root.canonicalPath jobId (targetPath path)
      (.new .transactionIo "transaction target delete failed")).run

def localRestoreBackup (root : RegisteredRoot) (jobId : String) (index : UInt32)
    (path : String) : JobProg Unit := do
  if (← inspect fun d => localInspectTarget d root path).isSome then
    throw (.new .transactionConflict "target exists before backup restore")
  match ← look (·.backup root.canonicalPath jobId index) with
  | none => throw transactionIo
  | some file =>
    if file.links > 1 then throw (unsafeFile .rootIdentity)
    ensureTargetParent root path
    (renameBackup root.canonicalPath jobId index (targetPath path)).run

def localCleanupJob (root : RegisteredRoot) (jobId : String) : JobProg Unit := do
  if ← look fun d => (d.reserved root.canonicalPath jobId).isSome then
    lift (validateReservedJobDirectory jobId)
    (removeReserved root.canonicalPath jobId).run
  if ← look (·.hasJob jobId) then
    (removeJob jobId).run

def cleanupPreparedJob (prepared : PreparedJob) : JobProg Unit :=
  runMutation prepared.policy .cleanupJob none
    (localCleanupJob prepared.header.root prepared.header.jobId)

def cleanupPrivatePreparedJob (prepared : PreparedJob) : JobProg Unit :=
  runMutation prepared.policy .cleanupJob none do
    if ← look (·.hasJob prepared.header.jobId) then
      (removeJob prepared.header.jobId).run

/-! ### Journal operations -/

def appendState (prepared : PreparedJob) (state : JournalState) : JobProg Unit :=
  (appendRecord prepared.policy.medium prepared.header.jobId state).run

/-! ### Commit -/

def verifyOriginalSnapshots (prepared : PreparedJob) : List JournalEntry → JobProg Unit
  | [] => pure ()
  | entry :: entries => do
    let current ← inspect fun d => localInspectTarget d prepared.header.root entry.path
    if current ≠ entry.original then
      throw (.new .rootIdentity "target identity changed between prepare and commit")
    verifyOriginalSnapshots prepared entries

/-- The two moves of `apply_entries` without an atomic replacement. -/
def backUpTarget (prepared : PreparedJob) (entry : JournalEntry) : JobProg Unit :=
  match entry.original with
  | none => pure ()
  | some original =>
    runMutation prepared.policy .renameTargetToBackup (some entry.path)
      (localRenameTargetToBackup prepared.header.root prepared.header.jobId entry.transactionIndex
        entry.path original)

def installPrepared (prepared : PreparedJob) (entry : JournalEntry) : JobProg Unit :=
  if entry.action = .replace then
    match entry.preparedIndex with
    | none =>
      throw (.new .transactionState "replacement journal entry has no prepared index")
    | some index =>
      runMutation prepared.policy .renamePreparedToTarget (some entry.path)
        (localRenamePreparedToTarget prepared.header.root prepared.header.jobId index entry.path)
  else pure ()

def applyEntry (prepared : PreparedJob) (entry : JournalEntry) : JobProg Unit :=
  if entry.action = .replace && prepared.policy.usesAtomicReplacement then
    runMutation prepared.policy .atomicReplaceTarget (some entry.path) do
      if !(← prepared.policy.atomicReplaceTarget prepared.header.root prepared.header.jobId
          entry.transactionIndex entry.path entry.original) then
        throw (.new .transactionState "atomic replacement platform refused its operation")
  else do
    backUpTarget prepared entry
    installPrepared prepared entry

def applyEntries (prepared : PreparedJob) : List JournalEntry → JobProg Unit
  | [] => pure ()
  | entry :: entries => do
    applyEntry prepared entry
    applyEntries prepared entries

def deleteExisting (prepared : PreparedJob) (entry : JournalEntry) : JobProg Unit := do
  if ← inspect (targetExists prepared.header.root entry.path) then
    runMutation prepared.policy .deleteTarget (some entry.path)
      (localDeleteTarget prepared.header.root prepared.header.jobId entry.path)

def restoreEntry (prepared : PreparedJob) (entry : JournalEntry) : JobProg Unit :=
  if prepared.policy.usesAtomicReplacement then
    runMutation prepared.policy .atomicRestoreBackup (some entry.path) do
      if !(← prepared.policy.atomicRestoreBackup prepared.header.root prepared.header.jobId
          entry.transactionIndex entry.path) then
        throw (.new .transactionState "atomic rollback platform refused its operation")
  else do
    deleteExisting prepared entry
    runMutation prepared.policy .restoreBackup (some entry.path)
      (localRestoreBackup prepared.header.root prepared.header.jobId entry.transactionIndex
        entry.path)

def rollbackEntry (prepared : PreparedJob) (entry : JournalEntry) : JobProg Unit :=
  match entry.original with
  | some _ => do
    if ← inspect (localBackupExists prepared.header.root prepared.header.jobId
        entry.transactionIndex) then
      restoreEntry prepared entry
  | none => deleteExisting prepared entry

def rollbackReversed (prepared : PreparedJob) : List JournalEntry → JobProg Unit
  | [] => pure ()
  | entry :: entries => do
    rollbackEntry prepared entry
    rollbackReversed prepared entries

def rollbackEntries (prepared : PreparedJob) : JobProg Unit := do
  inspect fun d => localVerifyRootIdentity d prepared.header.root
  rollbackReversed prepared prepared.header.entries.reverse

/-- What `commit_file_set` does after an error; `incomplete` is the text of the error
that leaves the rest to recovery. -/
def rollBack (prepared : PreparedJob) (error : MaintenanceError) (incomplete : String) :
    JobProg CommitResult := do
  let _ ← attempt (appendState prepared .rollingBack)
  match ← attempt (do
    rollbackEntries prepared
    cleanupPreparedJob prepared) with
  | .error _ => throw (recoveryError incomplete)
  | .ok () => throw error

def commitFileSet (prepared : PreparedJob) : JobProg CommitResult := do
  inspect fun d => localVerifyRootIdentity d prepared.header.root
  verifyOriginalSnapshots prepared prepared.header.entries
  appendState prepared .committing
  match ← attempt (applyEntries prepared prepared.header.entries) with
  | .error commitError =>
    rollBack prepared commitError "commit failed and rollback must be resumed by recovery"
  | .ok () =>
    match ← attempt (appendState prepared .committed) with
    | .error _ =>
      rollBack prepared (.new .transactionIo "committed journal state could not be persisted")
        "journal commit failed and rollback must be resumed by recovery"
    | .ok () =>
      let cleanup ← attempt (cleanupPreparedJob prepared)
      pure {
        jobId := prepared.header.jobId
        generation := prepared.header.generation
        cleanupPending := match cleanup with
          | .ok () => false
          | .error _ => true }

/-! ### Recovery -/

section Recovery

variable [Unicode] [Deserialize JournalHeader] [Deserialize JournalStateRecord]

def recoverState (prepared : PreparedJob) (state : JournalState) (result : RecoveryResult) :
    JobProg RecoveryResult := do
  let jobId := prepared.header.jobId
  match state with
  | .prepared =>
    cleanupPreparedJob prepared
    pure { result with discardedPreparedJobs := result.discardedPreparedJobs ++ [jobId] }
  | .committing =>
    appendState prepared .rollingBack
    rollbackEntries prepared
    cleanupPreparedJob prepared
    pure { result with rolledBackJobs := result.rolledBackJobs ++ [jobId] }
  | .rollingBack =>
    rollbackEntries prepared
    cleanupPreparedJob prepared
    pure { result with rolledBackJobs := result.rolledBackJobs ++ [jobId] }
  | .committed =>
    cleanupPreparedJob prepared
    pure { result with committedJobs := result.committedJobs ++ [jobId] }

def recoverJournal (policy : Policy) (name : String) (journal : Bytes) (result : RecoveryResult) :
    JobProg RecoveryResult := do
  let (header, state) ← lift (readJournal journal)
  if name ≠ header.jobId then
    throw (recoveryError "transaction directory does not match journal job ID")
  let prepared : PreparedJob := { header, policy }
  match ← look (localVerifyRootIdentity · header.root) with
  | .error identityError =>
    if state = .prepared && (← look (localRootIsMissing · header.root)) then
      cleanupPrivatePreparedJob prepared
      pure { result with
        discardedPreparedJobs := result.discardedPreparedJobs ++ [header.jobId] }
    else throw identityError
  | .ok () => recoverState prepared state result

def recoverDirectory (policy : Policy) (name : String) (result : RecoveryResult) :
    JobProg RecoveryResult := do
  match ← look (·.directory name) with
  | none =>
    throw (recoveryError "unexpected entry exists in the private jobs directory")
  | some directory =>
    match directory.journal with
    | none =>
      (removeJob name).run
      pure { result with discardedPreparedJobs := result.discardedPreparedJobs ++ [name] }
    | some journal => recoverJournal policy name journal result

def recoverDirectories (policy : Policy) : List String → RecoveryResult → JobProg RecoveryResult
  | [], result => pure result
  | name :: names, result => do
    recoverDirectories policy names (← recoverDirectory policy name result)

def recoverIncompleteWithPolicy (policy : Policy) : JobProg RecoveryResult := do
  match ← look (·.jobs) with
  | none => pure {}
  | some names => recoverDirectories policy (names.insertionSort (· ≤ ·)) {}

end Recovery

/-! ### Prepare -/

section Prepare

variable [Unicode] [Sha256]

/-- The name of a job and of its directories. -/
def jobIdOf (root : RegisteredRoot) (manifest : VerifiedFileSet) : String :=
  root.rootId ++ "-" ++ toString manifest.fileSet.generation.toNat ++ "-" ++
    encodeHex manifest.digest.toList

def declaredSize : List FileEntry → UInt64 → Option UInt64
  | [], total => some total
  | entry :: entries, total => do declaredSize entries (← checkedAdd total entry.size)

/-- On the local platform both directories are on one volume with all the space there is. -/
def ensureAvailableSpace (required : UInt64) : Result Unit :=
  if 2 * required.toNat < UInt64.size then .ok ()
  else .error (.new .insufficientSpace "same-volume staging requirement overflowed")

/-- What a reader of the staging directory returns for each path, in pieces. -/
abbrev Staging := String → Result (List Bytes)

/-- The metadata a new file gets. -/
abbrev Stamp := String → UInt32 → DirectoryIdentity × UInt64

def copyPayloads (jobId : String) (staging : Staging) : List (FileEntry × Nat) → JobProg Unit
  | [] => pure ()
  | (entry, index) :: entries => do
    let source ← lift (staging entry.path)
    let (written, verdict) := copyReaderVerified source entry
    (storePayload jobId index written).run
    lift verdict
    copyPayloads jobId staging entries

def inspectFiles (root : RegisteredRoot) : List (FileEntry × Nat) → JobProg (List JournalEntry)
  | [] => pure []
  | (entry, index) :: entries => do
    let original ← inspect fun d => localInspectTarget d root entry.path
    let rest ← inspectFiles root entries
    pure ({ action := .replace, original, path := entry.path
            preparedIndex := some (UInt32.ofNat index)
            transactionIndex := UInt32.ofNat index } :: rest)

def inspectRemovals (root : RegisteredRoot) (offset : Nat) :
    List (String × Nat) → JobProg (List JournalEntry)
  | [] => pure []
  | (path, index) :: paths => do
    let original ← inspect fun d => localInspectTarget d root path
    let rest ← inspectRemovals root offset paths
    pure ({ action := .remove, original, path, preparedIndex := none
            transactionIndex := UInt32.ofNat (offset + index) } :: rest)

def prepareTargets (stamp : Stamp) (root : RegisteredRoot) (jobId : String) :
    List (FileEntry × Nat) → JobProg Unit
  | [] => pure ()
  | (entry, index) :: entries => do
    ensureReservedLeafDirectory root jobId
    match ← look fun d => d.directory jobId >>= (·.payload index) with
    | none => throw transactionIo
    | some payload =>
      let (written, verdict) := copyReaderVerified [payload] entry
      let (identity, lastWriteTime) := stamp jobId (UInt32.ofNat index)
      (storePrepared root.canonicalPath jobId (UInt32.ofNat index)
        { content := written, identity, lastWriteTime, links := 1, origin := .existing }).run
      lift verdict
    prepareTargets stamp root jobId entries

def prepareJobContents (manifest : VerifiedFileSet) (root : RegisteredRoot) (staging : Staging)
    (stamp : Stamp) (policy : Policy) (jobId : String) : JobProg JournalHeader := do
  copyPayloads jobId staging manifest.fileSet.files.zipIdx
  let files ← inspectFiles root manifest.fileSet.files.zipIdx
  let removals ← inspectRemovals root manifest.fileSet.files.length
    manifest.fileSet.removeFiles.zipIdx
  let header : JournalHeader := {
    entries := files ++ removals
    generation := manifest.fileSet.generation
    jobId
    manifestDigest := encodeHex manifest.digest.toList
    root
    schema := journalSchema }
  (writeNewJournal policy.medium jobId header).run
  prepareTargets stamp root jobId manifest.fileSet.files.zipIdx
  pure header

def prepareFileSet (manifest : VerifiedFileSet) (root : RegisteredRoot) (stagingIsAbsolute : Bool)
    (staging : Staging) (stamp : Stamp) (policy : Policy) : JobProg PreparedJob := do
  inspect fun d => localVerifyRootIdentity d root
  if manifest.fileSet.productId ≠ root.productId then
    throw (.new .productMismatch "verified file set belongs to another registered product")
  if !stagingIsAbsolute then
    throw (.new .stagingInvalid "staging directory must be absolute")
  match declaredSize manifest.fileSet.files 0 with
  | none => throw (.new .insufficientSpace "declared payload size overflowed")
  | some required =>
    lift (ensureAvailableSpace required)
    let jobId := jobIdOf root manifest
    createJobs.run
    (createJob jobId
      (.new .transactionConflict "a transaction with this manifest already exists")).run
    createPayloads.run
    match ← attempt (prepareJobContents manifest root staging stamp policy jobId) with
    | .ok header => pure { header, policy }
    | .error error =>
      let _ ← attempt (localCleanupJob root jobId)
      throw error

end Prepare

end Se7en

import Se7enService.Requests
import Se7enService.RegistryTransaction
import Se7enService.Transaction
set_option autoImplicit false

/-! `process_request` and `finish_prepare` of `windows.rs` over the state of the service and
the files that it is saved in. -/

namespace Se7en.Windows
open Faulty

/-- The libraries and tables that the service is built on. -/
class Externals where
  unicode : Unicode
  base64 : Base64
  sha256 : Sha256
  ed25519 : Ed25519
  registryNames : RegistryNames
  keyrings : Deserialize Keyring
  registrySets : Deserialize RegistrySet
  fileSets : Deserialize FileSet
  roots : Deserialize RootRegistryDocument
  registryScopes : Deserialize RegistryScopeRegistryDocument
  generations : Deserialize GenerationRegistryDocument
  registryTransactions : Deserialize RegistryTransactionJournal
  journalHeaders : Deserialize JournalHeader
  journalRecords : Deserialize JournalStateRecord

attribute [reducible, instance] Externals.unicode Externals.base64 Externals.sha256
  Externals.ed25519 Externals.registryNames Externals.keyrings Externals.registrySets
  Externals.fileSets Externals.roots Externals.registryScopes Externals.generations
  Externals.registryTransactions Externals.journalHeaders Externals.journalRecords

/-- The channel that a worker sends its result through. -/
inductive Channel (α : Type) where
  | empty
  | sent (result : Except MaintenanceError α)
  | disconnected

def Channel.isEmpty {α : Type} : Channel α → Bool
  | .empty => true
  | _ => false

/-- A worker that ends without a result leaves its channel disconnected. -/
def Channel.deliver {α : Type} : Outcome MaintenanceError α → Channel α
  | .ok result => .sent (.ok result)
  | .error error => .sent (.error error)
  | .crashed => .disconnected

/-- A commit worker that was started; `serial` numbers the preparations. -/
structure CommitWorker where
  job : PreparedJob
  serial : Nat
  preparedBy : String
  committedBy : String
  channel : Channel CommitResult

inductive CompletedState where
  | committed
  | failed
  | rolledBack
  deriving DecidableEq, Repr

structure CompletedJob where
  cleanupPending : Bool
  error : Option ErrorCode
  generation : Option UInt64
  state : CompletedState
  deriving DecidableEq, Repr

/-- The receiver of `Committing` is given by the number of its worker. -/
inductive ActiveJobState where
  | prepared (job : PreparedJob)
  | committing (worker : Nat)
  | completed (job : CompletedJob)

structure ActiveJob where
  jobId : String
  ownerSid : String
  serial : Nat
  state : ActiveJobState

/-- What is done for a caller, for what is said about it. No program reads this. -/
inductive Happened [Externals] where
  | registersRoot (caller : CallerIdentity) (root : RegisteredRoot)
  | registersScope (caller : CallerIdentity) (scope : RegisteredRegistryScope)
  | applies (caller : CallerIdentity) (scope : RegisteredRegistryScope)
      (manifest : VerifiedRegistrySet)
  | prepared (serial : Nat) (ownerSid : String) (root : RegisteredRoot)
      (manifest : VerifiedFileSet) (job : PreparedJob)

/-- `ServiceState` with the files behind it and the commit workers it has started. -/
structure ServiceState [Externals] where
  roots : RootRegistry
  rootFile : ServiceFile
  generations : GenerationRegistry
  generationFile : ServiceFile
  registryScopes : RegistryScopeRegistry
  registryScopeFile : ServiceFile
  registry : RegistryStore
  activeJob : Option ActiveJob
  commits : List CommitWorker
  log : List Happened

/-- A verified request whose preparation is left to the prepare worker. -/
structure PrepareWork [Externals] where
  manifest : VerifiedFileSet
  root : RegisteredRoot
  stagingPath : String
  ownerSid : String

structure PreparedOutcome [Externals] where
  prepared : PreparedJob
  manifest : VerifiedFileSet
  root : RegisteredRoot
  ownerSid : String
  serial : Nat

/-- A job as `job_status_response` reports it. -/
inductive JobStatus where
  | prepared
  | committing
  | completed (job : CompletedJob)
  deriving DecidableEq, Repr

inductive Response where
  | status (registryScopeCount rootCount : Nat)
  | rootStatus (root : RegisteredRoot)
  | registryScopeStatus (scope : RegisteredRegistryScope)
  | done (id : String)
  | applied (applied : AppliedRegistrySet)
  | prepared (jobId : String)
  | committing (jobId : String)
  | job (jobId : String) (status : JobStatus)
  deriving DecidableEq, Repr

inductive Dispatch [Externals] where
  | respond (response : Response)
  | prepare (work : PrepareWork)

/-- What the operating system answers while one request is processed. -/
structure Call where
  caller : Result CallerIdentity
  impersonated : Result CallerIdentity
  opened : Result (String × DirectoryIdentity)
  keyOpened : Result Unit
  manifest : Result Bytes
  keyring : Result Bytes
  stopRequested : Bool
  workerStarted : Bool

/-! ### As the caller -/

/-- `opened` stands for the checks and the name of the opened directory. -/
def registeredRootAsCaller (call : Call) (rootId productId : String) (rootKind : RootKind) :
    Result (CallerIdentity × RegisteredRoot) := do
  let identity ← call.impersonated
  rejectIf (!identity.elevatedAdministrator)
    (.new .rootUnauthorized "root registration requires an elevated administrator token")
  let (canonical, directory) ← call.opened
  let root ← RegisteredRoot.fromCanonicalIdentity rootId productId rootKind canonical directory
    identity.sid
  pure (identity, root)

def readManifestAsCaller (call : Call) (maximum : Nat) : Result (CallerIdentity × Bytes) := do
  let identity ← call.impersonated
  let bytes ← call.manifest
  rejectIf (bytes.length > maximum)
    (.new .manifestTooLarge "signed manifest exceeds the configured bound")
  pure (identity, bytes)

section Programs

variable [Externals]

/-- `keyOpened` stands for the creation and the opening of the key. -/
def registeredRegistryScopeAsCaller (call : Call) (scopeId productId : String)
    (view : RegistryView) (subkey : String) (allowedValues : List AllowedRegistryValue) :
    Result (CallerIdentity × RegisteredRegistryScope) := do
  let identity ← call.impersonated
  rejectIf (!identity.elevatedAdministrator)
    (.new .registryScopeUnauthorized
      "registry-scope registration requires an elevated administrator token")
  let scope ← RegisteredRegistryScope.new scopeId productId view subkey allowedValues identity.sid
  call.keyOpened
  pure (identity, scope)

abbrev ServiceProg (α : Type) := Prog ServiceState MaintenanceError Empty α

def rootFile : Part ServiceState ServiceFile where
  get s := s.rootFile
  set rootFile s := { s with rootFile }

def generationFile : Part ServiceState ServiceFile where
  get s := s.generationFile
  set generationFile s := { s with generationFile }

def registryScopeFile : Part ServiceState ServiceFile where
  get s := s.registryScopeFile
  set registryScopeFile s := { s with registryScopeFile }

def registry : Part ServiceState RegistryStore where
  get s := s.registry
  set registry s := { s with registry }

def ServiceState.withJob (s : ServiceState) (activeJob : Option ActiveJob) : ServiceState :=
  { s with activeJob }

/-- The event is logged. -/
def note (happened : Happened) : ServiceProg Unit :=
  assign fun s => { s with log := s.log ++ [happened] }

/-! ### The active job -/

/-- The result of a worker as `refresh_active_job` reads it off the channel. -/
def completedJob : Channel CommitResult → Option CompletedJob
  | .empty => none
  | .sent (.ok result) => some {
      cleanupPending := result.cleanupPending
      error := none
      generation := some result.generation
      state := .committed }
  | .sent (.error error) => some {
      cleanupPending := false
      error := some error.code
      generation := none
      state := if error.code = .recoveryIncomplete then .failed else .rolledBack }
  | .disconnected => some {
      cleanupPending := false
      error := some .recoveryIncomplete
      generation := none
      state := .failed }

/-- A receiver whose sender is gone is disconnected. -/
def ServiceState.channel (s : ServiceState) (worker : Nat) : Channel CommitResult :=
  match s.commits[worker]? with
  | some commit => commit.channel
  | none => .disconnected

def refreshActiveJob (s : ServiceState) : ServiceState :=
  match s.activeJob with
  | none => s
  | some active =>
    match active.state with
    | .prepared _ | .completed _ => s
    | .committing worker =>
      match completedJob (s.channel worker) with
      | none => s
      | some job => s.withJob (some { active with state := .completed job })

/-- A completed job makes room for the next transaction. -/
def dropCompleted (s : ServiceState) : ServiceState :=
  match s.activeJob with
  | some { state := .completed _, .. } => s.withJob none
  | _ => s

def jobStatus : ActiveJobState → JobStatus
  | .prepared _ => .prepared
  | .committing _ => .committing
  | .completed job => .completed job

def jobStatusResponse (jobId : String) : ServiceProg Response := do
  assign refreshActiveJob
  match ← look (·.activeJob) with
  | none => throw (.new .transactionState "maintenance job is no longer available")
  | some active => pure (.job jobId (jobStatus active.state))

/-! ### The arms of `process_request` -/

def registerRoot (call : Call) (ownerSid rootId productId : String) (rootKind : RootKind) :
    ServiceProg Response := do
  let (verifiedCaller, root) ← lift (registeredRootAsCaller call rootId productId rootKind)
  lift (rejectIf (verifiedCaller.sid ≠ ownerSid)
    (.new .rootUnauthorized "caller token changed during root registration"))
  let roots ← lift ((← look (·.roots)).register root)
  note (.registersRoot verifiedCaller root)
  rootFile.run roots.save
  assign ({ · with roots })
  pure (.done rootId)

def unregisterRoot (caller : CallerIdentity) (rootId authorizedRootId : String) :
    ServiceProg Response := do
  lift (rejectIf (rootId ≠ authorizedRootId) (.new .rootUnauthorized "authorized root ID changed"))
  let (_, roots) ← lift ((← look (·.roots)).unregister rootId caller.sid)
  rootFile.run roots.save
  assign ({ · with roots })
  pure (.done rootId)

def registerRegistryScope (call : Call) (ownerSid scopeId productId : String) (view : RegistryView)
    (subkey : String) (allowedValues : List AllowedRegistryValue) : ServiceProg Response := do
  let (verifiedCaller, scope) ←
    lift (registeredRegistryScopeAsCaller call scopeId productId view subkey allowedValues)
  lift (rejectIf (verifiedCaller.sid ≠ ownerSid)
    (.new .registryScopeUnauthorized "caller token changed during registry-scope registration"))
  let registryScopes ← lift ((← look (·.registryScopes)).register scope)
  note (.registersScope verifiedCaller scope)
  registryScopeFile.run registryScopes.save
  assign ({ · with registryScopes })
  pure (.done scopeId)

def unregisterRegistryScope (caller : CallerIdentity) (scopeId authorizedScopeId : String) :
    ServiceProg Response := do
  lift (rejectIf (scopeId ≠ authorizedScopeId)
    (.new .registryScopeUnauthorized "authorized registry scope ID changed"))
  let (_, registryScopes) ← lift ((← look (·.registryScopes)).unregister scopeId caller.sid)
  registryScopeFile.run registryScopes.save
  assign ({ · with registryScopes })
  pure (.done scopeId)

/-- The stop request stands before the lookup of the job, as in the source. The slot of the
worker gives the job back when no thread could be started. -/
def commitJob (call : Call) (caller : CallerIdentity) (jobId authorizedJobId : String) :
    ServiceProg Response := do
  lift (rejectIf (jobId ≠ authorizedJobId || call.stopRequested)
    (.new .transactionState "commit cannot start after a stop request"))
  match ← look (·.activeJob) with
  | none => throw (.new .transactionState "maintenance job is no longer available")
  | some active =>
    let placeholder : ActiveJobState := .completed {
      cleanupPending := false
      error := some .transactionState
      generation := none
      state := .failed }
    assign (·.withJob (some { active with state := placeholder }))
    match active.state with
    | .prepared prepared =>
      if call.workerStarted then
        let worker ← look (·.commits.length)
        assign fun s => { s with
          commits := s.commits ++ [{
            job := prepared
            serial := active.serial
            preparedBy := active.ownerSid
            committedBy := caller.sid
            channel := .empty }] }
        assign (·.withJob (some { active with state := .committing worker }))
        pure (.committing jobId)
      else
        assign (·.withJob (some { active with state := .prepared prepared }))
        throw (.new .transactionState "commit worker cannot be started")
    | previousState =>
      assign (·.withJob (some { active with state := previousState }))
      throw (.new .transactionState "maintenance job is not prepared")

def applyRegistrySet (call : Call) (caller : CallerIdentity) (scope : RegisteredRegistryScope) :
    ServiceProg Response := do
  assign dropCompleted
  let active ← look (·.activeJob.isSome)
  lift (rejectIf (active || call.stopRequested)
    (.new .serviceBusy "registry mutation cannot overlap another maintenance transaction"))
  let (manifestCaller, manifestBytes) ← lift (readManifestAsCaller call maxRegistrySetBytes)
  lift (rejectIf (manifestCaller.sid ≠ caller.sid)
    (.new .registryScopeUnauthorized "caller token changed while opening the registry manifest"))
  let keyringBytes ← lift call.keyring
  let keyring ← lift (verifyKeyring keyringBytes {})
  let previous ← lift ((← look (·.registry.accepted)).previous scope.scopeId)
  let manifest ← lift (verifyRegistrySet manifestBytes keyring {
    allowedValues := scope.allowedValues
    expectedProductId := scope.productId
    expectedScopeId := scope.scopeId
    previous })
  note (.applies caller scope manifest)
  let applied ← registry.run (applyRegistrySetTransaction scope manifest)
  pure (.applied applied)

def prepareRequest (call : Call) (caller : CallerIdentity) (root : RegisteredRoot)
    (stagingPath : String) : ServiceProg PrepareWork := do
  assign dropCompleted
  let active ← look (·.activeJob.isSome)
  lift (rejectIf active (.new .transactionConflict "only one maintenance job may be active"))
  let (manifestCaller, manifestBytes) ← lift (readManifestAsCaller call maxManifestBytes)
  lift (rejectIf (manifestCaller.sid ≠ caller.sid)
    (.new .rootUnauthorized "caller token changed while opening the manifest"))
  let keyringBytes ← lift call.keyring
  let keyring ← lift (verifyKeyring keyringBytes {})
  let previous ← lift ((← look (·.generations)).previous root.rootId)
  let manifest ← lift (verifyFileSet manifestBytes keyring {
    expectedProductId := root.productId
    previous })
  pure { manifest, root, stagingPath, ownerSid := caller.sid }

def processRequest (call : Call) (request : Request) (preparing : Bool) : ServiceProg Dispatch := do
  lift (rejectIf (preparing && requestKind request = .mutation)
    (.new .serviceBusy "another maintenance job is being prepared"))
  assign refreshActiveJob
  let caller ← lift call.caller
  let s ← look id
  let authorization ← lift (authorizeRequest request caller s.roots s.registryScopes
    (s.activeJob.map fun job => (job.jobId, job.ownerSid)))
  match request, authorization with
  | .getStatus, .getStatus =>
    pure (.respond (.status (s.registryScopes.ownedScopeCount caller.sid)
      (s.roots.accessibleRootCount caller.sid)))
  | .getRootStatus _, .getRootStatus root => pure (.respond (.rootStatus root))
  | .getRegistryScopeStatus _, .getRegistryScopeStatus scope =>
    pure (.respond (.registryScopeStatus scope))
  | .registerRoot rootId productId rootKind _, .registerRoot ownerSid => do
    pure (.respond (← registerRoot call ownerSid rootId productId rootKind))
  | .unregisterRoot rootId, .unregisterRoot authorizedRootId => do
    pure (.respond (← unregisterRoot caller rootId authorizedRootId))
  | .registerRegistryScope scopeId productId view subkey allowedValues,
      .registerRegistryScope ownerSid => do
    pure (.respond
      (← registerRegistryScope call ownerSid scopeId productId view subkey allowedValues))
  | .unregisterRegistryScope scopeId, .unregisterRegistryScope authorizedScopeId => do
    pure (.respond (← unregisterRegistryScope caller scopeId authorizedScopeId))
  | .applyRegistrySet _ _, .applyRegistrySet scope => do
    pure (.respond (← applyRegistrySet call caller scope))
  | .prepareFileSet _ _ stagingPath, .prepareFileSet root => do
    pure (.prepare (← prepareRequest call caller root stagingPath))
  | .commitJob jobId, .commitJob authorizedJobId => do
    pure (.respond (← commitJob call caller jobId authorizedJobId))
  | .getJobStatus jobId, .getJobStatus authorizedJobId =>
    if jobId = authorizedJobId then do
      pure (.respond (← jobStatusResponse jobId))
    else throw (.new .protocolInvalid "request and authorization decision did not match")
  | _, _ => throw (.new .protocolInvalid "request and authorization decision did not match")

/-! ### The end of a preparation -/

def finishPrepare (outcome : PreparedOutcome) : ServiceProg Response := do
  let jobId := outcome.prepared.header.jobId
  let generations ← lift ((← look (·.generations)).accept outcome.root.rootId outcome.manifest.record)
  assign ({ · with generations })
  generationFile.run generations.save
  assign (·.withJob (some {
    jobId
    ownerSid := outcome.ownerSid
    serial := outcome.serial
    state := .prepared outcome.prepared }))
  note (.prepared outcome.serial outcome.ownerSid outcome.root outcome.manifest outcome.prepared)
  pure (.prepared jobId)

end Programs

end Se7en.Windows

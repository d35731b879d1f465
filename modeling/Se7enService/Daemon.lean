import Se7enService.RequestEffects
import Se7enService.RegistryGenerations
set_option autoImplicit false

/-! The service from one start to the next: `recover_service_state`, the events of
`serve_requests`, and the workers beside it. -/

namespace Se7en.Windows
open Faulty

/-! ### The generation that a job id names -/

/-- One step of `rsplitn`: what stands before and behind the last separator. -/
def rsplitOnce (separator : Char) (text : List Char) : Option (List Char × List Char) :=
  match text.reverse.dropWhile (· ≠ separator) with
  | [] => none
  | _ :: before => some (before.reverse, (text.reverse.takeWhile (· ≠ separator)).reverse)

def maxJobIdBytes : Nat := 64 + 1 + 20 + 1 + 64

def validJobIdentifier (value : String) : Bool :=
  if byteLength value > maxJobIdBytes then false
  else
    match rsplitOnce '-' value.toList with
    | none => false
    | some (before, digest) =>
      match rsplitOnce '-' before with
      | none => false
      | some (rootId, generationText) =>
        validIdentifier (String.ofList rootId) && (utf8 digest).length = 64
          && (utf8 digest).all (fun byte => isAsciiDigit byte || 97 ≤ byte && byte ≤ 102)
          && (parseU64 generationText).any fun generation =>
            generation > 0 && (toString generation.toNat).toList = generationText

def generationFromJobId (jobId : String) : Option (String × GenerationRecord) :=
  if validJobIdentifier jobId then do
    let (before, digest) ← rsplitOnce '-' jobId.toList
    let (rootId, generationText) ← rsplitOnce '-' before
    let generation ← parseU64 generationText
    if generation = 0 || !validIdentifier (String.ofList rootId) then none
    else
      match decodeDigest (String.ofList digest) .generationConflict with
      | .ok digest => some (String.ofList rootId, { generation, digest })
      | .error _ => none
  else none

/-! ### The workers -/

/-- What the prepare worker is answered before and while it prepares. -/
structure PrepareCall where
  stagingCaller : Result CallerIdentity
  staging : Staging
  stamp : Stamp
  launcherVerified : Result Unit
  policyReady : Result Unit

structure PrepareInFlight [Externals] where
  work : PrepareWork
  serial : Nat
  receiver : Channel PreparedOutcome

section Daemon

variable [Externals]

def runPrepare (call : PrepareCall) (policy : Policy) (work : PrepareWork) (serial : Nat) :
    JobProg PreparedOutcome := do
  let stagingCaller ← lift call.stagingCaller
  lift (rejectIf (stagingCaller.sid ≠ work.ownerSid)
    (.new .rootUnauthorized "caller token changed while opening staging handles"))
  lift (if work.root.rootKind = .launcher then call.launcherVerified else .ok ())
  lift call.policyReady
  let prepared ← prepareFileSet work.manifest work.root (isAbsolute work.stagingPath.toList)
    call.staging call.stamp policy
  pure { prepared, manifest := work.manifest, root := work.root, ownerSid := work.ownerSid, serial }

/-! ### The start -/

/-- `recover_service_state` up to the recovery of the jobs. -/
def loadServiceState : ServiceProg Unit := do
  let roots ← lift (RootRegistry.stored.start (← look (·.rootFile)))
  assign ({ · with roots })
  let generations ← generationFile.run GenerationRegistry.load
  assign ({ · with generations })
  let registryScopes ← lift (RegistryScopeRegistry.stored.start (← look (·.registryScopeFile)))
  assign ({ · with registryScopes })
  registry.run (recoverRegistryState registryScopes)
  assign (·.withJob none)

def recoverJobs (policy : Policy) (policyReady : Result Unit) : JobProg RecoveryResult := do
  lift policyReady
  recoverIncompleteWithPolicy policy

/-- The loop over `recovery.committed_jobs`; `recovered` is `recovered_generation`. -/
def replayCommitted (recovered : Bool) : List String → ServiceProg Bool
  | [] => pure recovered
  | jobId :: jobs =>
    match generationFromJobId jobId with
    | none => replayCommitted recovered jobs
    | some (rootId, record) => do
      let generations ← lift ((← look (·.generations)).accept rootId record)
      assign ({ · with generations })
      replayCommitted true jobs

def replayGenerations (jobs : List String) : ServiceProg Unit := do
  if ← replayCommitted false jobs then
    let generations ← look (·.generations)
    generationFile.run generations.save

/-! ### The process -/

/-- The service with the disk of its roots and jobs; `preparations` counts the prepare workers
that were started. -/
structure Daemon where
  service : ServiceState
  disk : Disk
  running : Bool
  preparing : Option PrepareInFlight
  preparations : Nat

/-- What happens to the process. -/
inductive Action where
  /-- A request is served; `spawned` tells whether a prepare worker could be started. -/
  | request (call : Call) (request : Request) (spawned : Bool) (sch : Schedule Empty)
  | wake (sch : Schedule Empty)
  | prepareEnds (call : PrepareCall) (sch : Schedule Intrusion)
  | commitEnds (worker : Nat) (sch : Schedule Intrusion)
  | stop
  | start (loading : Schedule Empty) (policyReady : Result Unit) (recovery : Schedule Intrusion)
      (replaying : Schedule Empty)
  /-- Another program changes what is found at a root. -/
  | outside (path : String) (entry : Option RootEntry) (node : TargetPath → Option Node)

def CommitWorker.abandon (commit : CommitWorker) : CommitWorker :=
  match commit.channel with
  | .empty => { commit with channel := .disconnected }
  | _ => commit

namespace Daemon

/-- The end of the process takes its workers and its memory along. -/
def halt (d : Daemon) : Daemon :=
  { d with
    running := false
    preparing := none
    service := { d.service with
      activeJob := none
      commits := d.service.commits.map CommitWorker.abandon } }

def afterRequest (d : Daemon) (s : ServiceState) (spawned : Bool) :
    Outcome MaintenanceError Dispatch → Daemon
  | .ok (.prepare work) =>
    if spawned then
      { d with
        service := s
        preparing := some { work, serial := d.preparations, receiver := .empty }
        preparations := d.preparations + 1 }
    else { d with service := s }
  | .ok (.respond _) | .error _ => { d with service := s }
  | .crashed => halt { d with service := s }

def serveRequest (d : Daemon) (call : Call) (request : Request) (spawned : Bool)
    (sch : Schedule Empty) : Daemon :=
  match processRequest call request d.preparing.isSome d.service sch with
  | (outcome, s, _) => d.afterRequest s spawned outcome

def afterPrepare (d : Daemon) (s : ServiceState) : Outcome MaintenanceError Response → Daemon
  | .ok _ | .error _ => { d with service := s, preparing := none }
  | .crashed => halt { d with service := s }

/-- The `Wake` event: the prepare worker is taken when it has ended. -/
def serveWake (d : Daemon) (sch : Schedule Empty) : Daemon :=
  match d.preparing with
  | none => d
  | some inFlight =>
    match inFlight.receiver with
    | .empty => d
    | .sent (.ok outcome) =>
      match finishPrepare outcome d.service sch with
      | (result, s, _) => d.afterPrepare s result
    | .sent (.error _) | .disconnected => { d with preparing := none }

def endPrepare (policy : Policy) (d : Daemon) (call : PrepareCall) (sch : Schedule Intrusion) :
    Daemon :=
  match d.preparing with
  | some ⟨work, serial, .empty⟩ =>
    match runPrepare call policy work serial d.disk sch with
    | (outcome, disk, _) => { d with disk, preparing := some ⟨work, serial, .deliver outcome⟩ }
  | _ => d

def endCommit (d : Daemon) (worker : Nat) (sch : Schedule Intrusion) : Daemon :=
  match d.service.commits[worker]? with
  | some ⟨job, serial, preparedBy, committedBy, .empty⟩ =>
    match commitFileSet job d.disk sch with
    | (outcome, disk, _) =>
      { d with
        disk
        service := { d.service with
          commits := d.service.commits.set worker
            ⟨job, serial, preparedBy, committedBy, .deliver outcome⟩ } }
  | _ => d

/-- Requests are served only behind a start without an error. -/
def afterStart (d : Daemon) (disk : Disk) (s : ServiceState) :
    Outcome MaintenanceError Unit → Daemon
  | .ok _ => { d with service := s, disk, running := true }
  | _ => { d with service := s, disk }

def recoverServiceState (policy : Policy) (d : Daemon) (loading : Schedule Empty)
    (policyReady : Result Unit) (recovery : Schedule Intrusion) (replaying : Schedule Empty) :
    Daemon :=
  match loadServiceState d.service loading with
  | (.ok _, s, _) =>
    match recoverJobs policy policyReady d.disk recovery with
    | (.ok result, disk, _) =>
      match replayGenerations result.committedJobs s replaying with
      | (outcome, s', _) => d.afterStart disk s' outcome
    | (_, disk, _) => { d with service := s, disk }
  | (_, s, _) => { d with service := s }

def step (policy : Policy) (d : Daemon) : Action → Daemon
  | .request call request spawned sch =>
    if d.running then d.serveRequest call request spawned sch else d
  | .wake sch => if d.running then d.serveWake sch else d
  | .prepareEnds call sch => d.endPrepare policy call sch
  | .commitEnds worker sch => d.endCommit worker sch
  | .stop => d.halt
  | .start loading policyReady recovery replaying =>
    if d.running then d
    else d.recoverServiceState policy loading policyReady recovery replaying
  | .outside path entry node =>
    { d with disk := d.disk.setRoot path { d.disk.root path with entry, node } }

/-- A machine on which the service has never run. -/
structure Fresh (d : Daemon) : Prop where
  running : d.running = false
  preparing : d.preparing = none
  preparations : d.preparations = 0
  roots : d.service.roots = .new
  rootFile : d.service.rootFile = ⟨none, none, none⟩
  generations : d.service.generations = .empty
  generationFile : d.service.generationFile = ⟨none, none, none⟩
  registryScopes : d.service.registryScopes = .new
  registryScopeFile : d.service.registryScopeFile = ⟨none, none, none⟩
  registryTransaction : d.service.registry.transaction = ⟨none, none, none⟩
  registryGenerations : d.service.registry.generations = ⟨none, none, none⟩
  accepted : d.service.registry.accepted = .empty
  activeJob : d.service.activeJob = none
  commits : d.service.commits = []
  log : d.service.log = []
  jobs : d.disk.jobs = none

/-- Runs whose steps `gate` admits. -/
abbrev Runs (policy : Policy) (gate : Daemon → Action → Prop) : Daemon → Daemon → Prop :=
  Relation.ReflTransGen fun d t => ∃ action, gate d action ∧ t = d.step policy action

end Daemon

end Daemon

/-! ### A machine for concrete runs -/

/-- The documents that a concrete run reads, and the digests of its files. -/
structure SampleDocuments where
  keyrings : List Keyring := []
  registrySets : List RegistrySet := []
  fileSets : List FileSet := []
  generations : List GenerationRegistryDocument := []
  registryTransactions : List RegistryTransactionJournal := []
  journalHeaders : List JournalHeader := []
  journalRecords : List JournalStateRecord := []
  digests : List (Bytes × Bytes) := []

/-- ASCII letters are all that the names of the concrete runs have. -/
def mapAscii (f : Char → Char) (text : String) : String := String.ofList (text.toList.map f)

/-- The documents of the runs are signed. -/
@[reducible] noncomputable def SampleDocuments.externals (documents : SampleDocuments) : Externals where
  unicode := ⟨mapAscii Char.toLower⟩
  base64 := ⟨fun _ => none, fun _ => ""⟩
  sha256 := ⟨fun bytes => (documents.digests.lookup bytes).getD []⟩
  ed25519 := ⟨fun _ => true, fun _ _ _ => true⟩
  registryNames := ⟨mapAscii Char.toUpper⟩
  keyrings := .canonicalWith documents.keyrings
  registrySets := .canonicalWith documents.registrySets
  fileSets := .canonicalWith documents.fileSets
  roots := .canonical _
  registryScopes := .canonical _
  generations := .canonicalWith documents.generations
  registryTransactions := .canonicalWith documents.registryTransactions
  journalHeaders := .canonicalWith documents.journalHeaders
  journalRecords := .canonicalWith documents.journalRecords

/-- The service before its first start. -/
def Daemon.fresh [Externals] (hive : Hive) (disk : Disk) : Daemon where
  service := {
    roots := .new
    rootFile := ⟨none, none, none⟩
    generations := .empty
    generationFile := ⟨none, none, none⟩
    registryScopes := .new
    registryScopeFile := ⟨none, none, none⟩
    registry := {
      hive
      transaction := ⟨none, none, none⟩
      generations := ⟨none, none, none⟩
      accepted := .empty }
    activeJob := none
    commits := []
    log := [] }
  disk := disk
  running := false
  preparing := none
  preparations := 0

theorem Daemon.fresh_fresh [Externals] {hive : Hive} {disk : Disk} (h : disk.jobs = none) :
    (Daemon.fresh hive disk).Fresh :=
  ⟨rfl, rfl, rfl, rfl, rfl, rfl, rfl, rfl, rfl, rfl, rfl, rfl, rfl, rfl, rfl, h⟩

/-- The state behind some steps. -/
def Daemon.after [Externals] (policy : Policy) (d : Daemon) (actions : List Action) : Daemon :=
  actions.foldl (step policy) d

def Daemon.Admits [Externals] (policy : Policy) (gate : Daemon → Action → Prop) :
    Daemon → List Action → Prop
  | _, [] => True
  | d, action :: actions => gate d action ∧ Admits policy gate (d.step policy action) actions

theorem Daemon.after_runs [Externals] {policy : Policy} {gate : Daemon → Action → Prop} {d : Daemon}
    {actions : List Action} (h : d.Admits policy gate actions) :
    Runs policy gate d (d.after policy actions) := by
  induction actions generalizing d with
  | nil => exact .refl
  | cons action actions ih => exact .head ⟨action, h.1, rfl⟩ (ih h.2)

end Se7en.Windows

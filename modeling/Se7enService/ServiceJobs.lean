import Se7enService.PrepareSpec
set_option autoImplicit false

/-! The service process around the jobs: its active job, the requests that prepare and
commit, and the recovery with which it starts. -/

namespace Se7en
open Faulty

/-- How a commit that has ended is reported. -/
inductive CompletedState where
  | committed
  | failed
  | rolledBack
  deriving DecidableEq, Repr

/-- `ActiveJobState`. While a commit runs every other change is refused, so that a commit is
one step here. The file set of a prepared job is kept for what is said about it. -/
inductive ActiveJobState where
  | prepared : PreparedJob → FileSet → ActiveJobState
  | completed : CompletedState → ActiveJobState

/-- What committed jobs have made of the paths of a root: a file of a manifest, or no file. -/
abbrev Described := String → TargetPath → Option (Option FileEntry)

/-- The process, if it runs, and the disk. No program reads what has been described. -/
structure Service where
  disk : Disk
  running : Bool
  activeJob : Option ActiveJobState
  described : Described

def Service.start (disk : Disk) : Service where
  disk := disk
  running := false
  activeJob := none
  described := fun _ _ => none

/-- What a manifest says about a path. -/
def FileSet.describe (fileSet : FileSet) (target : TargetPath) : Option (Option FileEntry) :=
  match fileSet.files.find? (fun file => targetPath file.path = target) with
  | some file => some (some file)
  | none => if fileSet.removeFiles.any (targetPath · = target) then some none else none

/-- From its start on a job may change its own targets. -/
def Described.forget (described : Described) (path : String) (fileSet : FileSet) : Described :=
  fun q target =>
    if q = path ∧ (fileSet.describe target).isSome then none else described q target

def Described.learn (described : Described) (path : String) (fileSet : FileSet) : Described :=
  fun q target =>
    if q = path ∧ (fileSet.describe target).isSome then fileSet.describe target
    else described q target

/-- `refresh_active_job`. -/
def completedState : Except MaintenanceError CommitResult → CompletedState
  | .ok _ => .committed
  | .error error => if error.code = .recoveryIncomplete then .failed else .rolledBack

namespace Service

variable (s : Service)

/-- A completed job makes room for the next one. -/
def accepts : Bool :=
  match s.activeJob with
  | some (.prepared _ _) => false
  | _ => s.running

/-- `process_request` and `finish_prepare`; `recorded` tells whether the generation of the
manifest could be accepted and saved. -/
def afterPrepare (fileSet : FileSet) (recorded : Bool) (disk : Disk) :
    Outcome MaintenanceError PreparedJob → Service
  | .ok job =>
    { s with disk, activeJob := if recorded then some (.prepared job fileSet) else none }
  | .error _ => { s with disk, activeJob := none }
  | .crashed => { s with disk, running := false, activeJob := none }

def afterCommit (path : String) (fileSet : FileSet) (disk : Disk) :
    Outcome MaintenanceError CommitResult → Service
  | .ok result =>
    { s with
      disk
      activeJob := some (.completed (completedState (.ok result)))
      described := s.described.learn path fileSet }
  | .error error =>
    { s with
      disk
      activeJob := some (.completed (completedState (.error error)))
      described := s.described.forget path fileSet }
  | .crashed =>
    { s with
      disk, running := false, activeJob := none, described := s.described.forget path fileSet }

/-- `recover_service_state`: requests are served only behind a recovery without an error. -/
def afterRecovery (disk : Disk) : Outcome MaintenanceError RecoveryResult → Service
  | .ok _ => { s with disk, running := true, activeJob := none }
  | _ => { s with disk, running := false, activeJob := none }

end Service

/-- Nothing has changed for the jobs; files and roots may have. -/
structure Disk.Untouched (d d' : Disk) : Prop where
  jobs : d'.jobs = d.jobs
  entry : d'.entry = d.entry
  recorded : d'.history.recorded = d.history.recorded
  reserved : ∀ path jobId, d'.reserved path jobId = d.reserved path jobId

section Steps

variable [Unicode] [Sha256] [Deserialize JournalHeader] [Deserialize JournalStateRecord]

/-- A step of the service. Only commits that `Admits` admits are started. -/
inductive Service.Step (policy : Policy) (Admits : Service → PreparedJob → Prop) :
    Service → Service → Prop where
  | prepare {s : Service} (manifest : VerifiedFileSet) (root : RegisteredRoot) (absolute : Bool)
      (staging : Staging) (stamp : Stamp) (recorded : Bool) {sch rest : Schedule Intrusion}
      {outcome : Outcome MaintenanceError PreparedJob} {d : Disk} :
      s.accepts → (∀ e ∈ sch, Quiet e) →
      prepareFileSet manifest root absolute staging stamp policy s.disk sch = (outcome, d, rest) →
      Step policy Admits s (s.afterPrepare manifest.fileSet recorded d outcome)
  | commit {s : Service} {job : PreparedJob} {fileSet : FileSet} {sch rest : Schedule Intrusion}
      {outcome : Outcome MaintenanceError CommitResult} {d : Disk} :
      s.running → s.activeJob = some (.prepared job fileSet) → Admits s job →
      (∀ e ∈ sch, Quiet e) → commitFileSet job s.disk sch = (outcome, d, rest) →
      Step policy Admits s (s.afterCommit job.header.root.canonicalPath fileSet d outcome)
  | restart {s : Service} {sch rest : Schedule Intrusion}
      {outcome : Outcome MaintenanceError RecoveryResult} {d : Disk} :
      (∀ e ∈ sch, Quiet e) → recoverIncompleteWithPolicy policy s.disk sch = (outcome, d, rest) →
      Step policy Admits s (s.afterRecovery d outcome)
  | outside {s : Service} {d : Disk} : s.disk.Untouched d →
      (∀ path target, (s.described path target).isSome →
        d.target path target = s.disk.target path target) →
      Step policy Admits s { s with disk := d }

/-- No job has been prepared yet. -/
structure Disk.Unused (d : Disk) : Prop where
  jobs : d.jobs = none
  backup : ∀ path jobId index, d.backup path jobId index = none

/-- The states that the service reaches, from a disk without jobs. -/
inductive Service.Reached (policy : Policy) (Admits : Service → PreparedJob → Prop) :
    Service → Prop where
  | start {d : Disk} : d.Unused → Reached policy Admits (.start d)
  | step {s t : Service} : Reached policy Admits s → Service.Step policy Admits s t →
      Reached policy Admits t

end Steps

end Se7en

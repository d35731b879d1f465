import Se7enService.Faulty
import Se7enService.Journal
set_option autoImplicit false

/-! The files a transaction works on: the registered roots, the private jobs directory,
and the single operations on them, each of which can fail or be cut short. -/

namespace Se7en
open Faulty

abbrev Name := List Char
abbrev TargetPath := List Name

/-- Where a file came from: a job's payload, another program, or neither. -/
inductive Origin where
  | existing
  | payload : String → UInt32 → Origin
  | foreign
  deriving DecidableEq, Repr

structure File where
  content : Bytes
  identity : DirectoryIdentity
  lastWriteTime : UInt64
  links : Nat
  origin : Origin
  deriving DecidableEq, Repr

def File.snapshot (file : File) : TargetSnapshot where
  identity := file.identity
  lastWriteTime := file.lastWriteTime
  size := UInt64.ofNat file.content.length

inductive Node where
  | directory
  | file : File → Node
  | reparse
  deriving DecidableEq, Repr

/-- A job's directory below `.7launcher-maintenance/jobs` of a root. -/
structure ReservedJob where
  prepared : UInt32 → Option File
  backup : UInt32 → Option File

def ReservedJob.empty : ReservedJob := ⟨fun _ => none, fun _ => none⟩

structure RootEntry where
  canonical : String
  reparse : Bool
  identity : DirectoryIdentity
  deriving DecidableEq, Repr

/-- What is found at a root's path: its own entry, the tree below it and, apart from
that tree, the reserved directories of the jobs. -/
structure RootState where
  entry : Option RootEntry
  node : TargetPath → Option Node
  reserved : String → Option ReservedJob

/-- A job's private directory. -/
structure JobDirectory where
  journal : Option Bytes
  payload : Nat → Option Bytes

def JobDirectory.empty : JobDirectory := ⟨none, fun _ => none⟩

inductive JobsEntry where
  | directory : JobDirectory → JobsEntry
  | unexpected : JobsEntry

inductive MutationBoundary where
  | before
  | after
  deriving DecidableEq, Repr

inductive MutationKind where
  | atomicReplaceTarget
  | atomicRestoreBackup
  | renameTargetToBackup
  | renamePreparedToTarget
  | deleteTarget
  | restoreBackup
  | cleanupJob
  deriving DecidableEq, Repr

structure MutationEvent where
  boundary : MutationBoundary
  kind : MutationKind
  path : Option String
  deriving DecidableEq, Repr

/-- A file that a job moved or deleted at a target path, and the file it replaced there. -/
structure Mutation where
  jobId : String
  kind : MutationKind
  path : TargetPath
  file : File
  replaced : Option Node := none
  deriving DecidableEq, Repr

/-- A file that another program put at a path of a root, with the backups of that time. -/
structure Arrival where
  path : String
  target : TargetPath
  backup : String → UInt32 → Option File

/-- What no program reads: the records that became durable, the journals whose first
record was cut short, the appends that began behind an unterminated line, the files that
were moved or deleted, and those that another program put there. -/
structure History where
  recorded : String → List JournalState
  unstarted : String → Bool
  glued : String → Bool
  mutations : List Mutation
  arrivals : List Arrival

structure Disk where
  root : String → RootState
  jobs : Option (List String)
  entry : String → JobsEntry
  history : History

/-- Another program at work on the target paths of a root. -/
inductive Intrusion where
  | write : String → TargetPath → File → Intrusion
  | delete : String → TargetPath → Intrusion

abbrev JobProg (α : Type) := Prog Disk MaintenanceError Intrusion α
abbrev JobStep := Step Disk MaintenanceError Unit

/-- How appends to a journal end when they do not simply succeed. -/
structure Medium where
  /-- An interrupted append may leave a part of its record. -/
  tears : Bool
  /-- An append of this record may report an error although the record is durable. -/
  unknown : JournalState → Bool

/-! ### Updates -/

def update {α β : Type} [DecidableEq α] (f : α → β) (a : α) (b : β) : α → β :=
  fun x => if x = a then b else f x

@[simp] theorem update_self {α β : Type} [DecidableEq α] (f : α → β) (a : α) (b : β) :
    update f a b a = b := by simp [update]

theorem update_of_ne {α β : Type} [DecidableEq α] {f : α → β} {a x : α} {b : β} (h : x ≠ a) :
    update f a b x = f x := by simp [update, h]

def Disk.setRoot (d : Disk) (path : String) (state : RootState) : Disk :=
  { d with root := update d.root path state }

def Disk.setNode (d : Disk) (path : String) (target : TargetPath) (node : Option Node) : Disk :=
  d.setRoot path { d.root path with node := update (d.root path).node target node }

def Disk.setReserved (d : Disk) (path jobId : String) (job : Option ReservedJob) : Disk :=
  d.setRoot path { d.root path with reserved := update (d.root path).reserved jobId job }

def Disk.setEntry (d : Disk) (name : String) (directory : JobDirectory) : Disk :=
  { d with entry := update d.entry name (.directory directory) }

def Disk.withoutJob (d : Disk) (name : String) : Disk :=
  { d with jobs := d.jobs.map (·.filter (· ≠ name)) }

def Disk.hasJob (d : Disk) (name : String) : Bool :=
  match d.jobs with
  | none => false
  | some names => names.contains name

def Disk.directory (d : Disk) (name : String) : Option JobDirectory :=
  if d.hasJob name then
    match d.entry name with
    | .directory directory => some directory
    | .unexpected => none
  else none

def Disk.journal (d : Disk) (name : String) : Option Bytes := d.directory name >>= (·.journal)

def Disk.reserved (d : Disk) (path jobId : String) : Option ReservedJob :=
  (d.root path).reserved jobId

def Disk.target (d : Disk) (path : String) (target : TargetPath) : Option Node :=
  (d.root path).node target

def Disk.backup (d : Disk) (path jobId : String) (index : UInt32) : Option File :=
  d.reserved path jobId >>= (·.backup index)

def Disk.prepared (d : Disk) (path jobId : String) (index : UInt32) : Option File :=
  d.reserved path jobId >>= (·.prepared index)

def Disk.record (d : Disk) (name : String) (states : List JournalState) : Disk :=
  { d with history := { d.history with recorded := update d.history.recorded name states } }

def Disk.logged (d : Disk) (mutation : Mutation) : Disk :=
  { d with history := { d.history with mutations := d.history.mutations ++ [mutation] } }

def Disk.arrived (d : Disk) (path : String) (target : TargetPath) : Disk :=
  let arrival := { path, target, backup := d.backup path }
  { d with history := { d.history with arrivals := d.history.arrivals ++ [arrival] } }

/-- The directory that holds a path is there. -/
def parentExists (node : TargetPath → Option Node) (target : TargetPath) : Bool :=
  target.length ≤ 1 || node target.dropLast = some .directory

instance : Outside Intrusion Disk where
  act
    | .write path target file, d =>
      match d.target path target with
      | some .directory | some .reparse => d
      | _ =>
        if parentExists (d.root path).node target then
          (d.arrived path target).setNode path target
            (some (.file { file with origin := .foreign }))
        else d
    | .delete path target, d =>
      match d.target path target with
      | some (.file _) => d.setNode path target none
      | _ => d

/-! ### Operations on a root -/

def transactionIo : MaintenanceError :=
  .new .transactionIo "transaction filesystem operation failed"

def createDirectory (path : String) (target : TargetPath) : JobStep where
  effect d :=
    if (d.target path target).isSome || !parentExists (d.root path).node target then
      .error transactionIo
    else .ok ((), d.setNode path target (some .directory))
  fault := transactionIo

/-- The last component of `ensure_reserved_leaf_directory` that is created. -/
def createReservedLeaf (path jobId : String) : JobStep where
  effect d := .ok ((), match d.reserved path jobId with
    | some _ => d
    | none => d.setReserved path jobId (some .empty))
  fault := transactionIo

def storePrepared (path jobId : String) (index : UInt32) (file : File) : JobStep where
  effect d := match d.reserved path jobId with
    | none => .error transactionIo
    | some job => match job.prepared index with
      | some _ => .error transactionIo
      | none =>
        .ok ((), d.setReserved path jobId (some { job with
          prepared := update job.prepared index (some file) }))
  fault := transactionIo
  torn n d := match d.reserved path jobId with
    | none => d
    | some job => match job.prepared index with
      | some _ => d
      | none => d.setReserved path jobId (some { job with
          prepared := update job.prepared index (some { file with content := file.content.take n }) })

/-- `fs::rename` of a target to its backup, which replaces a backup that is there. -/
def renameToBackup (path jobId : String) (index : UInt32) (target : TargetPath) : JobStep where
  effect d := match d.target path target, d.reserved path jobId with
    | some (.file file), some job =>
      .ok ((), ((d.setNode path target none).setReserved path jobId
        (some { job with backup := update job.backup index (some file) })).logged
          { jobId, kind := .renameTargetToBackup, path := target, file })
    | _, _ => .error transactionIo
  fault := transactionIo

/-- `fs::rename` onto a target, which replaces a file that is there. -/
def renameOnto (d : Disk) (path : String) (target : TargetPath) (file : File) : Option Disk :=
  match d.target path target with
  | some .directory | some .reparse => none
  | _ =>
    if parentExists (d.root path).node target then some (d.setNode path target (some (.file file)))
    else none

def renamePrepared (path jobId : String) (index : UInt32) (target : TargetPath) : JobStep where
  effect d := match d.reserved path jobId with
    | none => .error transactionIo
    | some job => match job.prepared index with
      | none => .error transactionIo
      | some file =>
        let installed := { file with origin := .payload jobId index }
        match renameOnto d path target installed with
        | none => .error transactionIo
        | some d' =>
          .ok ((), (d'.setReserved path jobId
            (some { job with prepared := update job.prepared index none })).logged
              { jobId, kind := .renamePreparedToTarget, path := target, file := installed
                replaced := d.target path target })
  fault := transactionIo

def renameBackup (path jobId : String) (index : UInt32) (target : TargetPath) : JobStep where
  effect d := match d.reserved path jobId with
    | none => .error transactionIo
    | some job => match job.backup index with
      | none => .error transactionIo
      | some file =>
        match renameOnto d path target file with
        | none => .error transactionIo
        | some d' =>
          .ok ((), (d'.setReserved path jobId
            (some { job with backup := update job.backup index none })).logged
              { jobId, kind := .restoreBackup, path := target, file
                replaced := d.target path target })
  fault := transactionIo

/-- `fs::remove_file` of a target; an absent one counts as removed. -/
def removeTargetFile (path jobId : String) (target : TargetPath) (fault : MaintenanceError) :
    JobStep where
  effect d := match d.target path target with
    | some (.file file) =>
      .ok ((), (d.setNode path target none).logged
        { jobId, kind := .deleteTarget, path := target, file })
    | none => .ok ((), d)
    | _ => .error fault
  fault := fault

/-- Which entries of a directory an interrupted `remove_dir_all` has left. -/
def survives (n index : Nat) : Bool := n.testBit index

/-- `fs::remove_dir_all` of a job's reserved directory. -/
def removeReserved (path jobId : String) : JobStep where
  effect d := .ok ((), d.setReserved path jobId none)
  fault := transactionIo
  torn n d := removePart n d
  failed
    | .within n, d => removePart n d
    | _, d => d
where
  removePart (n : Nat) (d : Disk) : Disk :=
    match d.reserved path jobId with
    | none => d
    | some job => d.setReserved path jobId (some {
        prepared := fun index => if survives n (2 * index.toNat) then job.prepared index else none
        backup := fun index =>
          if survives n (2 * index.toNat + 1) then job.backup index else none })

/-! ### Operations on a job's private directory -/

def createJobs : JobStep where
  effect d := .ok ((), { d with jobs := some (d.jobs.getD []) })
  fault := transactionIo

def createJob (name : String) (fault : MaintenanceError) : JobStep where
  effect d := match d.jobs with
    | none => .error fault
    | some names =>
      if names.contains name then .error fault
      else .ok ((), ({ d with jobs := some (names ++ [name]) } : Disk).setEntry name .empty)
  fault := fault

/-- `fs::create_dir` of the payload directory in a job directory that was just created. -/
def createPayloads : JobStep where
  effect d := .ok ((), d)
  fault := transactionIo

def storePayload (name : String) (index : Nat) (content : Bytes) : JobStep where
  effect d := match d.directory name with
    | none => .error transactionIo
    | some directory => .ok ((), d.setEntry name
        { directory with payload := update directory.payload index (some content) })
  fault := transactionIo
  torn n d := match d.directory name with
    | none => d
    | some directory => d.setEntry name
        { directory with payload := update directory.payload index (some (content.take n)) }

/-- `fs::remove_dir_all` of a private job directory. -/
def removeJob (name : String) : JobStep where
  effect d := .ok ((), d.withoutJob name)
  fault := transactionIo
  torn n d := removePart n d
  failed
    | .within n, d => removePart n d
    | _, d => d
where
  removePart (n : Nat) (d : Disk) : Disk :=
    match d.directory name with
    | none => d
    | some directory => d.setEntry name {
        journal := if survives n 0 then directory.journal else none
        payload := fun index => if survives n (index + 1) then directory.payload index else none }

/-! ### Operations on a journal -/

/-- How much of a record has to be there for a reader to find it: all but the newline. -/
def recordLength (state : JournalState) : Nat := (recordLine state).length - 1

def writeNewJournal (medium : Medium) (name : String) (header : JournalHeader) : JobStep where
  effect d := match d.directory name with
    | none => .error transactionIo
    | some directory => match directory.journal with
      | some _ => .error transactionIo
      | none =>
        .ok ((), (d.setEntry name { directory with journal := some (newJournal header) }).record
          name [.prepared])
  fault := transactionIo
  torn n d := writePart n d
  failed
    | .within n, d => writePart n d
    | _, d => d
where
  writePart (n : Nat) (d : Disk) : Disk :=
    match d.directory name with
    | none => d
    | some directory =>
      if !medium.tears || directory.journal.isSome then d
      else
        let d' := d.setEntry name { directory with journal := some ((newJournal header).take n) }
        if (newJournal header).length - 1 ≤ n then d'.record name [.prepared]
        else { d' with history := { d'.history with
                        unstarted := update d'.history.unstarted name true } }

/-- Whether an append can start a new line. -/
def terminated (bytes : Bytes) : Bool := bytes.getLast? = some 10

def appendBytes (d : Disk) (name : String) (directory : JobDirectory) (old new : Bytes) : Disk :=
  let d' := d.setEntry name { directory with journal := some (old ++ new) }
  if terminated old then d'
  else { d' with history := { d'.history with glued := update d'.history.glued name true } }

def appendRecord (medium : Medium) (name : String) (state : JournalState) : JobStep where
  effect d := match d.directory name with
    | none => .error transactionIo
    | some directory => match directory.journal with
      | none => .error transactionIo
      | some old => .ok ((), whole d directory old)
  fault := transactionIo
  torn n d := appendPart n d
  failed
    | .before, d => d
    | .within n, d => appendPart n d
    | .after, d =>
      match d.directory name with
      | none => d
      | some directory => match directory.journal with
        | none => d
        | some old => if medium.unknown state then whole d directory old else d
where
  whole (d : Disk) (directory : JobDirectory) (old : Bytes) : Disk :=
    (appendBytes d name directory old (recordLine state)).record name
      (d.history.recorded name ++ [state])
  appendPart (n : Nat) (d : Disk) : Disk :=
    match d.directory name with
    | none => d
    | some directory => match directory.journal with
      | none => d
      | some old =>
        if !medium.tears then d
        else
          let d' := appendBytes d name directory old ((recordLine state).take n)
          if recordLength state ≤ n then d'.record name (d.history.recorded name ++ [state]) else d'

end Se7en

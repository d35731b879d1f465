import Se7enService.DiskChange
import Se7enService.TransactionPlatform
set_option autoImplicit false

/-! Where a platform does for a job what the local one does, so do the programs over it. -/

namespace Se7en
open Faulty

namespace TransactionPlatform

/-- For this root and the allowed paths, on the disks of `I`. -/
structure Like (platform : TransactionPlatform) (A : Event Intrusion → Prop) (I : Disk → Prop)
    (root : RegisteredRoot) (Allowed : String → Prop) : Prop where
  verifyRootIdentity : ∀ d, I d →
    platform.verifyRootIdentity root d = localVerifyRootIdentity d root
  inspectTarget : ∀ path, Allowed path → ∀ d, I d →
    platform.inspectTarget root path d = localInspectTarget d root path
  renameTargetToBackup : platform.renameTargetToBackup root = localRenameTargetToBackup root
  renamePreparedToTarget : platform.renamePreparedToTarget root = localRenamePreparedToTarget root
  backupExists : ∀ jobId index d, I d →
    platform.backupExists root jobId index d = localBackupExists root jobId index d
  deleteTarget : ∀ jobId path, Allowed path →
    Agrees A I (platform.deleteTarget root jobId path) (localDeleteTarget root jobId path)
  restoreBackup : platform.restoreBackup root = localRestoreBackup root
  cleanupJob : ∀ jobId, Agrees A I (platform.cleanupJob root jobId) (localCleanupJob root jobId)

/-- What the job does keeps `I`, step by step. -/
structure Steady (A : Event Intrusion → Prop) (I : Disk → Prop) (prepared : PreparedJob) : Prop where
  checkpoint : ∀ event, Keeps A I (checkpoint prepared.policy event)
  append : ∀ state, Keeps A I (appendState prepared state)
  apply : ∀ entry ∈ prepared.header.entries, Keeps A I (Se7en.applyEntry prepared entry)
  rollback : ∀ entry ∈ prepared.header.entries, Keeps A I (Se7en.rollbackEntry prepared entry)

section Agreement

variable {platform : TransactionPlatform} {A : Event Intrusion → Prop} {I : Disk → Prop}
  {root : RegisteredRoot} {Allowed : String → Prop} {prepared : PreparedJob} {entry : JournalEntry}

theorem agrees_bind {α β : Type} {p q : JobProg β} {f : β → JobProg α} (h : Agrees A I p q) :
    Agrees A I (p >>= f) (q >>= f) := by
  intro d hd sch hsch
  rw [run_bind, run_bind, h d hd sch hsch]

theorem agrees_inspect {α : Type} {check check' : Disk → Result α}
    (h : ∀ d, I d → check d = check' d) : Agrees A I (inspect check) (inspect check') :=
  agrees_bind (Agrees.looks h)

theorem agrees_runMutation {policy : Policy} {kind : MutationKind} {path : Option String}
    {p q : JobProg Unit} (hcheckpoint : ∀ event, Keeps A I (checkpoint policy event))
    (h : Agrees A I p q) : Agrees A I (runMutation policy kind path p)
      (runMutation policy kind path q) :=
  Agrees.bind Agrees.refl (hcheckpoint _) fun _ => agrees_bind h

/-- The entries' paths are allowed, so that the platform's own checks let the job through. -/
abbrev Covers (Allowed : String → Prop) (prepared : PreparedJob) : Prop :=
  ∀ entry ∈ prepared.header.entries, Allowed entry.path

theorem agrees_verifyOriginalSnapshots
    (h : platform.Like A I prepared.header.root Allowed) {entries : List JournalEntry}
    (hallowed : ∀ entry ∈ entries, Allowed entry.path) :
    Agrees A I (platform.verifyOriginalSnapshots prepared entries)
      (Se7en.verifyOriginalSnapshots prepared entries) := by
  induction entries with
  | nil => exact Agrees.refl
  | cons entry entries ih =>
    rw [List.forall_mem_cons] at hallowed
    refine Agrees.bind (agrees_inspect (h.inspectTarget _ hallowed.1)) (keeps_inspect _) ?_
    intro current
    by_cases hcurrent : current = entry.original
    · simp only [hcurrent, ne_eq, not_true_eq_false, if_false]
      exact ih hallowed.2
    · simp only [ne_eq, hcurrent, not_false_eq_true, if_true]
      exact Agrees.refl

theorem applyEntry_eq (h : platform.Like A I prepared.header.root Allowed) (entry : JournalEntry) :
    platform.applyEntry prepared entry = Se7en.applyEntry prepared entry := by
  unfold applyEntry Se7en.applyEntry backUpTarget Se7en.backUpTarget installPrepared
    Se7en.installPrepared
  rewrite [h.renameTargetToBackup, h.renamePreparedToTarget]
  rfl

theorem applyEntries_eq (h : platform.Like A I prepared.header.root Allowed)
    (entries : List JournalEntry) :
    platform.applyEntries prepared entries = Se7en.applyEntries prepared entries := by
  induction entries with
  | nil => rfl
  | cons entry entries ih =>
    unfold applyEntries Se7en.applyEntries
    rw [applyEntry_eq h, ih]

theorem agrees_deleteExisting (h : platform.Like A I prepared.header.root Allowed)
    (hcheckpoint : ∀ event, Keeps A I (checkpoint prepared.policy event))
    (hallowed : Allowed entry.path) :
    Agrees A I (platform.deleteExisting prepared entry) (Se7en.deleteExisting prepared entry) := by
  have hexists : ∀ d, I d → platform.targetExists prepared.header.root entry.path d =
      Se7en.targetExists prepared.header.root entry.path d := by
    intro d hd
    unfold targetExists Se7en.targetExists
    rw [h.inspectTarget _ hallowed d hd]
  refine Agrees.bind (agrees_inspect hexists) (keeps_inspect _) fun found => ?_
  cases found with
  | false => exact Agrees.refl
  | true => exact agrees_runMutation hcheckpoint (h.deleteTarget _ _ hallowed)

theorem agrees_rollbackEntry (h : platform.Like A I prepared.header.root Allowed)
    (hcheckpoint : ∀ event, Keeps A I (checkpoint prepared.policy event))
    (hallowed : Allowed entry.path) :
    Agrees A I (platform.rollbackEntry prepared entry) (Se7en.rollbackEntry prepared entry) := by
  have hdelete := agrees_deleteExisting h hcheckpoint hallowed
  unfold rollbackEntry Se7en.rollbackEntry
  cases entry.original with
  | none => exact hdelete
  | some original =>
    refine Agrees.bind (agrees_inspect (h.backupExists _ _)) (keeps_inspect _) fun found => ?_
    cases found with
    | false => exact Agrees.refl
    | true =>
      simp only [if_true]
      unfold restoreEntry Se7en.restoreEntry
      rw [h.restoreBackup]
      cases prepared.policy.usesAtomicReplacement with
      | true => exact Agrees.refl
      | false => exact agrees_bind hdelete

theorem agrees_rollbackReversed (h : platform.Like A I prepared.header.root Allowed)
    (hsteady : Steady A I prepared) {entries : List JournalEntry}
    (hsub : entries ⊆ prepared.header.entries) (hallowed : Covers Allowed prepared) :
    Agrees A I (platform.rollbackReversed prepared entries)
      (Se7en.rollbackReversed prepared entries) := by
  induction entries with
  | nil => exact Agrees.refl
  | cons entry entries ih =>
    obtain ⟨he, hrest⟩ := List.cons_subset.mp hsub
    exact Agrees.bind (agrees_rollbackEntry h hsteady.checkpoint (hallowed entry he))
      (hsteady.rollback entry he) fun _ => ih hrest

theorem keeps_rollbackEntries_steady (hsteady : Steady A I prepared) :
    Keeps A I (Se7en.rollbackEntries prepared) := by
  have hloop : ∀ entries ⊆ prepared.header.entries,
      Keeps A I (Se7en.rollbackReversed prepared entries) := by
    intro entries hsub
    induction entries with
    | nil => exact Keeps.pure _
    | cons entry entries ih =>
      obtain ⟨he, hrest⟩ := List.cons_subset.mp hsub
      exact Keeps.bind (hsteady.rollback entry he) fun _ => ih hrest
  exact Keeps.bind (keeps_inspect _) fun _ => hloop _ (List.reverse_subset.mpr (List.Subset.refl _))

theorem keeps_applyEntries_steady (hsteady : Steady A I prepared) {entries : List JournalEntry}
    (hsub : entries ⊆ prepared.header.entries) :
    Keeps A I (Se7en.applyEntries prepared entries) := by
  induction entries with
  | nil => exact Keeps.pure _
  | cons entry entries ih =>
    obtain ⟨he, hrest⟩ := List.cons_subset.mp hsub
    exact Keeps.bind (hsteady.apply entry he) fun _ => ih hrest

theorem agrees_rollbackEntries (h : platform.Like A I prepared.header.root Allowed)
    (hsteady : Steady A I prepared) (hallowed : Covers Allowed prepared) :
    Agrees A I (platform.rollbackEntries prepared) (Se7en.rollbackEntries prepared) :=
  Agrees.bind (agrees_inspect h.verifyRootIdentity) (keeps_inspect _) fun _ =>
    agrees_rollbackReversed h hsteady (List.reverse_subset.mpr (List.Subset.refl _)) hallowed

theorem agrees_cleanupPreparedJob (h : platform.Like A I prepared.header.root Allowed)
    (hcheckpoint : ∀ event, Keeps A I (checkpoint prepared.policy event)) :
    Agrees A I (platform.cleanupPreparedJob prepared) (Se7en.cleanupPreparedJob prepared) :=
  agrees_runMutation hcheckpoint (h.cleanupJob _)

theorem agrees_undo (h : platform.Like A I prepared.header.root Allowed)
    (hsteady : Steady A I prepared) (hallowed : Covers Allowed prepared) :
    Agrees A I (do platform.rollbackEntries prepared; platform.cleanupPreparedJob prepared)
      (do Se7en.rollbackEntries prepared; Se7en.cleanupPreparedJob prepared) :=
  Agrees.bind (agrees_rollbackEntries h hsteady hallowed) (keeps_rollbackEntries_steady hsteady)
    fun _ => agrees_cleanupPreparedJob h hsteady.checkpoint

theorem agrees_rollBack (h : platform.Like A I prepared.header.root Allowed)
    (hsteady : Steady A I prepared) (hallowed : Covers Allowed prepared) (error : MaintenanceError)
    (incomplete : String) :
    Agrees A I (platform.rollBack prepared error incomplete)
      (Se7en.rollBack prepared error incomplete) :=
  Agrees.bind Agrees.refl (Keeps.attempt (hsteady.append _)) fun _ =>
    agrees_bind (Agrees.attempt (agrees_undo h hsteady hallowed))

theorem agrees_commitFileSet (h : platform.Like A I prepared.header.root Allowed)
    (hsteady : Steady A I prepared) (hallowed : Covers Allowed prepared) :
    Agrees A I (platform.commitFileSet prepared) (Se7en.commitFileSet prepared) := by
  refine Agrees.bind (agrees_inspect h.verifyRootIdentity) (keeps_inspect _) fun _ => ?_
  refine Agrees.bind (agrees_verifyOriginalSnapshots h hallowed)
    (keeps_verifyOriginalSnapshots _) fun _ => ?_
  refine Agrees.bind Agrees.refl (hsteady.append _) fun _ => ?_
  rw [applyEntries_eq h]
  refine Agrees.bind Agrees.refl
    (Keeps.attempt (keeps_applyEntries_steady hsteady (List.Subset.refl _))) fun applied => ?_
  cases applied with
  | error e => exact agrees_rollBack h hsteady hallowed _ _
  | ok =>
    refine Agrees.bind Agrees.refl (Keeps.attempt (hsteady.append _)) fun committed => ?_
    cases committed with
    | error e => exact agrees_rollBack h hsteady hallowed _ _
    | ok => exact agrees_bind (Agrees.attempt (agrees_cleanupPreparedJob h hsteady.checkpoint))

theorem agrees_recoverState (h : platform.Like A I prepared.header.root Allowed)
    (hsteady : Steady A I prepared) (hallowed : Covers Allowed prepared) (state : JournalState)
    (result : RecoveryResult) :
    Agrees A I (platform.recoverState prepared state result)
      (Se7en.recoverState prepared state result) := by
  have hcleanup := agrees_cleanupPreparedJob h hsteady.checkpoint
  have hundo : ∀ result', Agrees A I (do
      platform.rollbackEntries prepared
      platform.cleanupPreparedJob prepared
      pure result' : JobProg RecoveryResult) (do
      Se7en.rollbackEntries prepared
      Se7en.cleanupPreparedJob prepared
      pure result') := fun _ =>
    Agrees.bind (agrees_rollbackEntries h hsteady hallowed) (keeps_rollbackEntries_steady hsteady)
      fun _ => agrees_bind hcleanup
  cases state with
  | prepared => exact agrees_bind hcleanup
  | committing => exact Agrees.bind Agrees.refl (hsteady.append _) fun _ => hundo _
  | rollingBack => exact hundo _
  | committed => exact agrees_bind hcleanup

theorem steady_any (prepared : PreparedJob) :
    Steady (fun _ => True) (fun _ => True) prepared where
  checkpoint _ _ _ := Wp.any
  append _ _ _ := Wp.any
  apply _ _ _ _ := Wp.any
  rollback _ _ _ _ := Wp.any

end Agreement

/-! ### The local platform -/

section Local

variable [Sha256] {stamp : Stamp}

theorem localPlatform_like (root : RegisteredRoot) :
    (localPlatform stamp).Like (fun _ => True) (fun _ => True) root (fun _ => True) where
  verifyRootIdentity _ _ := rfl
  inspectTarget _ _ _ _ := rfl
  renameTargetToBackup := rfl
  renamePreparedToTarget := rfl
  backupExists _ _ _ _ := rfl
  deleteTarget _ _ _ := Agrees.refl
  restoreBackup := rfl
  cleanupJob _ := Agrees.refl

/-- Over the local platform the commit is the one of `Transaction`. -/
theorem localPlatform_commitFileSet (prepared : PreparedJob) :
    (localPlatform stamp).commitFileSet prepared = Se7en.commitFileSet prepared :=
  (agrees_commitFileSet (localPlatform_like _) (steady_any prepared) fun _ _ => trivial).eq

variable [Unicode] [Deserialize JournalHeader] [Deserialize JournalStateRecord]

theorem localPlatform_recoverDirectory (policy : Policy) (name : String) (result : RecoveryResult) :
    (localPlatform stamp).recoverDirectory policy name result =
      Se7en.recoverDirectory policy name result := by
  have hstate : ∀ prepared state, (localPlatform stamp).recoverState prepared state result =
      Se7en.recoverState prepared state result := fun prepared state =>
    (agrees_recoverState (localPlatform_like _) (steady_any prepared) (fun _ _ => trivial) state
      result).eq
  unfold recoverDirectory Se7en.recoverDirectory recoverJournal Se7en.recoverJournal
  simp only [hstate]
  rfl

theorem localPlatform_recoverIncompleteWithPolicy (policy : Policy) :
    (localPlatform stamp).recoverIncompleteWithPolicy policy =
      Se7en.recoverIncompleteWithPolicy policy := by
  have hloop : ∀ names result, (localPlatform stamp).recoverDirectories policy names result =
      Se7en.recoverDirectories policy names result := by
    intro names
    induction names with
    | nil => exact fun _ => rfl
    | cons name names ih =>
      intro result
      unfold recoverDirectories Se7en.recoverDirectories
      rw [localPlatform_recoverDirectory]
      exact bind_congr ih
  refine bind_congr fun jobs => ?_
  cases jobs with
  | none => rfl
  | some names => exact hloop _ _

end Local

end TransactionPlatform

end Se7en

import Se7enService.Transaction
set_option autoImplicit false

/-! The single steps in which a job changes the disk. An invariant that is closed under
these steps is kept by the loops over the entries, the appends and the cleanup, whatever
another program does in between. -/

namespace Se7en
open Faulty

theorem targetPath_length (path : String) : 0 < (targetPath path).length := by
  have hne : targetPath path ≠ [] := split_ne_nil _ _
  exact List.length_pos_iff.mpr hne

/-- A directory above the target. -/
def Disk.withDirectory (d : Disk) (path : String) (target : TargetPath) : Disk :=
  d.setNode path target (some .directory)

def Disk.backedUp (d : Disk) (path jobId : String) (entry : JournalEntry) (job : ReservedJob)
    (file : File) : Disk :=
  ((d.setNode path (targetPath entry.path) none).setReserved path jobId
    (some { job with backup := update job.backup entry.transactionIndex (some file) })).logged
      { jobId, kind := .renameTargetToBackup, path := targetPath entry.path, file }

def Disk.installed (d : Disk) (path jobId : String) (entry : JournalEntry) (index : UInt32)
    (job : ReservedJob) (file : File) : Disk :=
  ((d.setNode path (targetPath entry.path)
      (some (.file { file with origin := .payload jobId index }))).setReserved path jobId
    (some { job with prepared := update job.prepared index none })).logged
      { jobId, kind := .renamePreparedToTarget, path := targetPath entry.path
        file := { file with origin := .payload jobId index }
        replaced := d.target path (targetPath entry.path) }

def Disk.deleted (d : Disk) (path jobId : String) (entry : JournalEntry) (file : File) : Disk :=
  (d.setNode path (targetPath entry.path) none).logged
    { jobId, kind := .deleteTarget, path := targetPath entry.path, file }

def Disk.restored (d : Disk) (path jobId : String) (entry : JournalEntry) (job : ReservedJob)
    (file : File) : Disk :=
  ((d.setNode path (targetPath entry.path) (some (.file file))).setReserved path jobId
    (some { job with backup := update job.backup entry.transactionIndex none })).logged
      { jobId, kind := .restoreBackup, path := targetPath entry.path, file
        replaced := d.target path (targetPath entry.path) }

/-- A step of applying an entry. -/
inductive ApplyChange (path jobId : String) (entry : JournalEntry) (d : Disk) : Disk → Prop where
  | directory {target : TargetPath} : d.target path target = none →
      target <+: (targetPath entry.path).dropLast →
      ApplyChange path jobId entry d (d.withDirectory path target)
  | leaf : d.reserved path jobId = none →
      ApplyChange path jobId entry d (d.setReserved path jobId (some .empty))
  | backUp {job : ReservedJob} {file : File} : entry.original.isSome →
      d.target path (targetPath entry.path) = some (.file file) →
      d.reserved path jobId = some job →
      ApplyChange path jobId entry d (d.backedUp path jobId entry job file)
  | install {index : UInt32} {job : ReservedJob} {file : File} :
      entry.preparedIndex = some index → d.reserved path jobId = some job →
      job.prepared index = some file →
      ApplyChange path jobId entry d (d.installed path jobId entry index job file)

/-- A step of rolling back an entry. A target is deleted only where no original is
recorded or where the backup waits. -/
inductive RollbackChange (path jobId : String) (entry : JournalEntry) (d : Disk) : Disk → Prop where
  | directory {target : TargetPath} : d.target path target = none →
      target <+: (targetPath entry.path).dropLast →
      RollbackChange path jobId entry d (d.withDirectory path target)
  | delete {file : File} : d.target path (targetPath entry.path) = some (.file file) →
      entry.original = none ∨ (d.backup path jobId entry.transactionIndex).isSome →
      RollbackChange path jobId entry d (d.deleted path jobId entry file)
  | restore {job : ReservedJob} {file : File} : entry.original.isSome →
      d.reserved path jobId = some job → job.backup entry.transactionIndex = some file →
      RollbackChange path jobId entry d (d.restored path jobId entry job file)

theorem renameOnto_eq {d d' : Disk} {path : String} {target : TargetPath} {file : File}
    (h : renameOnto d path target file = some d') :
    d' = d.setNode path target (some (.file file)) := by
  unfold renameOnto at h
  split at h
  · cases h
  · cases h
  · split at h
    · exact (Option.some.inj h).symm
    · cases h

/-! ### Rules for the wrappers -/

theorem Wp.inspect {A : Event Intrusion → Prop} {α : Type} {check : Disk → Result α}
    {Q : α → Disk → Prop} {E : MaintenanceError → Disk → Prop} {C : Disk → Prop} {d : Disk}
    (hok : ∀ a, check d = .ok a → Q a d) (herror : ∀ e, check d = .error e → E e d) :
    Wp A (inspect check) Q E C d :=
  Wp.bind (Wp.look (Wp.lift hok herror))

theorem Wp.checkpoint {Q : Unit → Disk → Prop} {E : MaintenanceError → Disk → Prop}
    {C : Disk → Prop} {d : Disk} (policy : Policy) (event : MutationEvent) (hQ : Q () d)
    (hE : ∀ e, E e d) (hC : C d) : Wp Quiet (checkpoint policy event) Q E C d :=
  Wp.step_quiet (Step.Meets.of_ok .plain rfl hQ (hE _) hC hC)

theorem Wp.runMutation {Q : Unit → Disk → Prop} {E : MaintenanceError → Disk → Prop}
    {C : Disk → Prop} {d : Disk} {policy : Policy} {kind : MutationKind} {path : Option String}
    {operation : JobProg Unit} (hE : ∀ e, E e d) (hC : C d)
    (h : Wp Quiet operation (fun _ d' => Q () d' ∧ (∀ e, E e d') ∧ C d') E C d) :
    Wp Quiet (runMutation policy kind path operation) Q E C d := by
  refine Wp.bind (Wp.checkpoint policy _ ?_ hE hC)
  refine Wp.bind (h.mono (fun _ d' hd => ?_) (fun _ _ he => he) (fun _ hc => hc))
  exact Wp.checkpoint policy _ hd.1 hd.2.1 hd.2.2

section Wrappers

variable {A : Event Intrusion → Prop} {I : Disk → Prop}

theorem keeps_inspect {α : Type} (check : Disk → Result α) : Keeps A I (inspect check) :=
  Keeps.bind (Keeps.look check) fun x => Keeps.lift x

theorem keeps_checkpoint (stable : Stable A I) (policy : Policy) (event : MutationEvent) :
    Keeps A I (checkpoint policy event) :=
  Keeps.whole .plain stable fun _ _ _ ht he => by cases he; exact ht

theorem keeps_runMutation (stable : Stable A I) (policy : Policy) (kind : MutationKind)
    (path : Option String) {operation : JobProg Unit} (h : Keeps A I operation) :
    Keeps A I (runMutation policy kind path operation) :=
  Keeps.bind (keeps_checkpoint stable policy _) fun _ => Keeps.bind h fun _ =>
    keeps_checkpoint stable policy _

end Wrappers

/-- Another program does not reach into the reserved directories. -/
theorem reserved_act (m : Intrusion) (d : Disk) (path jobId : String) :
    (Outside.act m d : Disk).reserved path jobId = d.reserved path jobId := by
  have hset : ∀ (d : Disk) (q : String) (target : TargetPath) (node : Option Node),
      (d.setNode q target node).reserved path jobId = d.reserved path jobId := by
    intro d q target node
    by_cases h : path = q
    · simp [Disk.reserved, Disk.setNode, Disk.setRoot, h]
    · simp [Disk.reserved, Disk.setNode, Disk.setRoot, update_of_ne h]
  cases m with
  | write q target file =>
    simp only [Outside.act]
    split
    · rfl
    · rfl
    · split
      · exact hset _ _ _ _
      · rfl
  | delete q target =>
    simp only [Outside.act]
    split
    · exact hset _ _ _ _
    · rfl

theorem backup_act (m : Intrusion) (d : Disk) (path jobId : String) :
    (Outside.act m d : Disk).backup path jobId = d.backup path jobId := by
  funext index
  simp [Disk.backup, reserved_act]

/-! ### Creating the parents of a target -/

section Parents

variable {A : Event Intrusion → Prop} {I : Disk → Prop} {root : RegisteredRoot}
  {entry : JournalEntry}

theorem keeps_ensureParents (stable : Stable A I)
    (hclosed : ∀ t target, I t → t.target root.canonicalPath target = none →
      target <+: (targetPath entry.path).dropLast → I (t.withDirectory root.canonicalPath target))
    {components : List Name} {current : TargetPath}
    (hp : current ++ components <+: (targetPath entry.path).dropLast) :
    Keeps A I (ensureParents root current components) := by
  induction components generalizing current with
  | nil => exact Keeps.pure ()
  | cons component rest ih =>
    have hrest : (current ++ [component]) ++ rest <+: (targetPath entry.path).dropLast := by
      simpa using hp
    refine Keeps.bind (Keeps.look _) fun node => ?_
    cases node with
    | none =>
      refine Keeps.bind (Keeps.whole .plain stable fun t _ t' ht heff => ?_) fun _ => ih hrest
      simp only [createDirectory] at heff
      split at heff
      · cases heff
      · rename_i h
        cases heff
        simp only [Bool.or_eq_true, not_or, Bool.not_eq_true, Option.isSome_eq_false_iff,
          Option.isNone_iff_eq_none] at h
        exact hclosed t _ ht h.1 ((List.prefix_append _ rest).trans hrest)
    | some node =>
      cases node with
      | directory => exact ih hrest
      | file => exact Keeps.throw _
      | reparse => exact Keeps.throw _

theorem keeps_ensureTargetParent (stable : Stable A I)
    (hclosed : ∀ t target, I t → t.target root.canonicalPath target = none →
      target <+: (targetPath entry.path).dropLast → I (t.withDirectory root.canonicalPath target)) :
    Keeps A I (ensureTargetParent root entry.path) :=
  Keeps.bind (Keeps.lift _) fun _ =>
    keeps_ensureParents stable hclosed (List.prefix_refl _)

end Parents

/-! ### Applying -/

section Apply

variable {A : Event Intrusion → Prop} {I : Disk → Prop} {prepared : PreparedJob}
  {entry : JournalEntry}

/-- The steps of applying this entry do not break the invariant. -/
def AppliesWithin (prepared : PreparedJob) (entry : JournalEntry) (I : Disk → Prop) : Prop :=
  ∀ t t', I t → ApplyChange prepared.header.root.canonicalPath prepared.header.jobId entry t t' → I t'

theorem keeps_ensureReservedLeafDirectory {root : RegisteredRoot} {jobId : String}
    (stable : Stable A I) (hclosed : ∀ t, I t → t.reserved root.canonicalPath jobId = none →
      I (t.setReserved root.canonicalPath jobId (some .empty))) :
    Keeps A I (ensureReservedLeafDirectory root jobId) := by
  unfold ensureReservedLeafDirectory
  split
  · exact Keeps.throw _
  refine Keeps.whole .plain stable fun t _ t' ht heff => ?_
  cases heff
  cases hjob : t.reserved root.canonicalPath jobId with
  | some job => exact ht
  | none => exact hclosed t ht hjob

theorem keeps_backUpTarget (stable : Stable A I) (hclosed : AppliesWithin prepared entry I) :
    Keeps A I (backUpTarget prepared entry) := by
  unfold backUpTarget
  cases horiginal : entry.original with
  | none => exact Keeps.pure ()
  | some original =>
    refine keeps_runMutation stable _ _ _ (Keeps.bind (keeps_inspect _) fun current => ?_)
    by_cases hcurrent : current = some original
    · simp only [hcurrent, ne_eq, not_true_eq_false, if_false]
      refine Keeps.bind (keeps_ensureReservedLeafDirectory stable fun t ht hnone =>
        hclosed t _ ht (.leaf hnone)) fun _ => ?_
      refine Keeps.bind (Keeps.look _) fun backup => ?_
      cases backup with
      | true => exact Keeps.throw _
      | false =>
        refine Keeps.whole .plain stable fun t _ t' ht heff => ?_
        simp only [renameToBackup] at heff
        split at heff
        · rename_i file job hfile hjob
          cases heff
          exact hclosed t _ ht (.backUp (by simp [horiginal]) hfile hjob)
        · cases heff
    · simp only [hcurrent, ne_eq, not_false_eq_true, if_true]
      exact Keeps.throw _

theorem keeps_installPrepared (stable : Stable A I) (hclosed : AppliesWithin prepared entry I) :
    Keeps A I (installPrepared prepared entry) := by
  unfold installPrepared
  split
  · cases hindex : entry.preparedIndex with
    | none => exact Keeps.throw _
    | some index =>
      refine keeps_runMutation stable _ _ _ (Keeps.bind (keeps_inspect _) fun current => ?_)
      cases current with
      | some snapshot => exact Keeps.throw _
      | none =>
        refine Keeps.bind (Keeps.look _) fun file => ?_
        cases file with
        | none => exact Keeps.throw _
        | some file =>
          by_cases hlinks : file.links > 1
          · simp only [hlinks, if_true]
            exact Keeps.throw _
          simp only [hlinks, if_false]
          refine Keeps.bind (keeps_ensureTargetParent stable fun t target ht hnone hp =>
            hclosed t _ ht (.directory hnone hp)) fun _ => ?_
          refine Keeps.whole .plain stable fun t _ t' ht heff => ?_
          simp only [renamePrepared] at heff
          split at heff
          · cases heff
          rename_i job hjob
          split at heff
          · cases heff
          rename_i file hfile
          split at heff
          · cases heff
          rename_i d' hrename
          cases heff
          rw [renameOnto_eq hrename]
          exact hclosed t _ ht (.install hindex hjob hfile)
  · exact Keeps.pure ()

theorem keeps_applyEntry (hpolicy : prepared.policy.usesAtomicReplacement = false)
    (stable : Stable A I) (hclosed : AppliesWithin prepared entry I) :
    Keeps A I (applyEntry prepared entry) := by
  simp only [applyEntry, hpolicy, Bool.and_false, Bool.false_eq_true, if_false]
  exact Keeps.bind (keeps_backUpTarget stable hclosed) fun _ => keeps_installPrepared stable hclosed

theorem keeps_applyEntries (hpolicy : prepared.policy.usesAtomicReplacement = false)
    (stable : Stable A I) {entries : List JournalEntry}
    (hclosed : ∀ entry ∈ entries, AppliesWithin prepared entry I) :
    Keeps A I (applyEntries prepared entries) := by
  induction entries with
  | nil => exact Keeps.pure ()
  | cons entry rest ih =>
    rw [List.forall_mem_cons] at hclosed
    exact Keeps.bind (keeps_applyEntry hpolicy stable hclosed.1) fun _ => ih hclosed.2

end Apply

/-! ### Rolling back -/

section Rollback

variable {A : Event Intrusion → Prop} {I : Disk → Prop} {prepared : PreparedJob}
  {entry : JournalEntry}

/-- The steps of rolling back this entry do not break the invariant. -/
def RollsBackWithin (prepared : PreparedJob) (entry : JournalEntry) (I : Disk → Prop) : Prop :=
  ∀ t t', I t → RollbackChange prepared.header.root.canonicalPath prepared.header.jobId entry t t' →
    I t'

theorem keeps_deleteExisting (stable : Stable A I)
    (hclosed : ∀ t file, I t → t.target prepared.header.root.canonicalPath (targetPath entry.path) =
      some (.file file) → I (t.deleted prepared.header.root.canonicalPath prepared.header.jobId
        entry file)) : Keeps A I (deleteExisting prepared entry) := by
  refine Keeps.bind (keeps_inspect _) fun found => ?_
  cases found with
  | false => exact Keeps.pure ()
  | true =>
    refine keeps_runMutation stable _ _ _ (Keeps.bind (keeps_inspect _) fun current => ?_)
    cases current with
    | none => exact Keeps.pure ()
    | some snapshot =>
      refine Keeps.whole .plain stable fun t _ t' ht heff => ?_
      simp only [removeTargetFile] at heff
      split at heff
      · rename_i file hfile
        cases heff
        exact hclosed t file ht hfile
      · cases heff
        exact ht
      · cases heff

theorem keeps_localRestoreBackup (stable : Stable A I) (hclosed : RollsBackWithin prepared entry I)
    (horiginal : entry.original.isSome) :
    Keeps A I (localRestoreBackup prepared.header.root prepared.header.jobId entry.transactionIndex
      entry.path) := by
  refine Keeps.bind (keeps_inspect _) fun current => ?_
  cases current with
  | some snapshot => exact Keeps.throw _
  | none =>
    refine Keeps.bind (Keeps.look _) fun backup => ?_
    cases backup with
    | none => exact Keeps.throw _
    | some file =>
      by_cases hlinks : file.links > 1
      · simp only [hlinks, if_true]
        exact Keeps.throw _
      simp only [hlinks, if_false]
      refine Keeps.bind (keeps_ensureTargetParent stable fun t target ht hnone hp =>
        hclosed t _ ht (.directory hnone hp)) fun _ => ?_
      refine Keeps.whole .plain stable fun t _ t' ht heff => ?_
      simp only [renameBackup] at heff
      split at heff
      · cases heff
      rename_i job hjob
      split at heff
      · cases heff
      rename_i file hfile
      split at heff
      · cases heff
      rename_i d' hrename
      cases heff
      rw [renameOnto_eq hrename]
      exact hclosed t _ ht (.restore horiginal hjob hfile)

/-- Until the restore, the backup found at the start stays where it is. -/
theorem keeps_restoreEntry (hpolicy : prepared.policy.usesAtomicReplacement = false)
    (stable : Stable A I) (hclosed : RollsBackWithin prepared entry I)
    (horiginal : entry.original.isSome) {d : Disk} (hd : I d)
    (hbackup : (d.backup prepared.header.root.canonicalPath prepared.header.jobId
      entry.transactionIndex).isSome) :
    Wp A (restoreEntry prepared entry) (fun _ => I) (fun _ => I) I d := by
  simp only [restoreEntry, hpolicy, Bool.false_eq_true, if_false]
  have hdelete := keeps_deleteExisting
    (I := fun t => I t ∧ (t.backup prepared.header.root.canonicalPath prepared.header.jobId
      entry.transactionIndex).isSome)
    (stable.and fun m t _ ht => by rw [backup_act]; exact ht)
    (fun t file ht hfile => ⟨hclosed t _ ht.1 (.delete hfile (.inr ht.2)), by
      have hsame : (t.deleted prepared.header.root.canonicalPath prepared.header.jobId entry
          file).reserved prepared.header.root.canonicalPath prepared.header.jobId =
          t.reserved prepared.header.root.canonicalPath prepared.header.jobId := by
        simp [Disk.deleted, Disk.logged, Disk.reserved, Disk.setNode, Disk.setRoot]
      simpa [Disk.backup, hsame] using ht.2⟩)
  refine Wp.bind ((hdelete d ⟨hd, hbackup⟩).mono (fun _ t ht => ?_) (fun _ _ h => h.1)
    (fun _ h => h.1))
  exact keeps_runMutation stable _ _ _ (keeps_localRestoreBackup stable hclosed horiginal) t ht.1

theorem localBackupExists_isSome {root : RegisteredRoot} {jobId : String} {index : UInt32}
    {d : Disk} {found : Bool} (h : localBackupExists root jobId index d = .ok found) :
    (d.backup root.canonicalPath jobId index).isSome = found := by
  unfold localBackupExists at h
  cases hvalid : validateReservedJobDirectory jobId with
  | error e => simp [hvalid] at h
  | ok =>
    simp only [hvalid, Result.ok_bind] at h
    split at h
    · rename_i hnone
      cases h
      simp [hnone]
    · rename_i file hfile
      by_cases hlinks : file.links > 1
      · simp [hlinks] at h
      · simp [hlinks] at h
        simp [hfile, h]

theorem keeps_rollbackEntry (hpolicy : prepared.policy.usesAtomicReplacement = false)
    (stable : Stable A I) (hclosed : RollsBackWithin prepared entry I) :
    Keeps A I (rollbackEntry prepared entry) := by
  intro d hd
  unfold rollbackEntry
  cases horiginal : entry.original with
  | none =>
    exact keeps_deleteExisting stable
      (fun t file ht hfile => hclosed t _ ht (.delete hfile (.inl horiginal))) d hd
  | some original =>
    refine Wp.bind (Wp.inspect (fun found hfound => ?_) (fun _ _ => hd))
    cases found with
    | false => exact Wp.pure hd
    | true =>
      exact keeps_restoreEntry hpolicy stable hclosed (by simp [horiginal]) hd
        (localBackupExists_isSome hfound)

theorem keeps_rollbackReversed (hpolicy : prepared.policy.usesAtomicReplacement = false)
    (stable : Stable A I) {entries : List JournalEntry}
    (hclosed : ∀ entry ∈ entries, RollsBackWithin prepared entry I) :
    Keeps A I (rollbackReversed prepared entries) := by
  induction entries with
  | nil => exact Keeps.pure ()
  | cons entry rest ih =>
    rw [List.forall_mem_cons] at hclosed
    exact Keeps.bind (keeps_rollbackEntry hpolicy stable hclosed.1) fun _ => ih hclosed.2

theorem keeps_rollbackEntries (hpolicy : prepared.policy.usesAtomicReplacement = false)
    (stable : Stable A I)
    (hclosed : ∀ entry ∈ prepared.header.entries, RollsBackWithin prepared entry I) :
    Keeps A I (rollbackEntries prepared) := by
  refine Keeps.bind (keeps_inspect _) fun _ => keeps_rollbackReversed hpolicy stable ?_
  intro entry he
  exact hclosed entry (List.mem_reverse.mp he)

theorem keeps_verifyOriginalSnapshots (rest : List JournalEntry) :
    Keeps A I (verifyOriginalSnapshots prepared rest) := by
  induction rest with
  | nil => exact Keeps.pure ()
  | cons entry rest ih =>
    refine Keeps.bind (keeps_inspect _) fun current => ?_
    by_cases hcurrent : current = entry.original
    · simp only [hcurrent, ne_eq, not_true_eq_false, if_false]
      exact ih
    · simp only [hcurrent, ne_eq, not_false_eq_true, if_true]
      exact Keeps.throw _

end Rollback

/-! ### Appending a record -/

/-- A record of which `n` bytes have been appended. -/
def Disk.appended (d : Disk) (name : String) (state : JournalState) (n : Nat)
    (directory : JobDirectory) (old : Bytes) : Disk :=
  let d' := appendBytes d name directory old ((recordLine state).take n)
  if recordLength state ≤ n then d'.record name (d.history.recorded name ++ [state]) else d'

/-- An append of so many bytes of a record as `May` allows. -/
inductive AppendChange (name : String) (state : JournalState) (May : Nat → Prop) (d : Disk) :
    Disk → Prop where
  | cut {n : Nat} {directory : JobDirectory} {old : Bytes} :
      d.directory name = some directory → directory.journal = some old → May n →
      AppendChange name state May d (d.appended name state n directory old)

/-- A crash cuts off an append only where the medium tears. -/
def Medium.Cuts (medium : Medium) (state : JournalState) (n : Nat) : Prop :=
  medium.tears = true ∨ n = (recordLine state).length

/-- What a failed append may have left. -/
def Medium.Fails (medium : Medium) (state : JournalState) (n : Nat) : Prop :=
  medium.tears = true ∨ medium.unknown state = true ∧ n = (recordLine state).length

section Append

variable {A : Event Intrusion → Prop} {I : Disk → Prop} {medium : Medium} {name : String}
  {state : JournalState} {d d' : Disk} {directory : JobDirectory} {old : Bytes}

theorem Medium.Fails.cuts {n : Nat} (h : medium.Fails state n) : medium.Cuts state n :=
  h.imp id And.right

theorem AppendChange.mono {May May' : Nat → Prop} (h : AppendChange name state May d d')
    (himp : ∀ n, May n → May' n) : AppendChange name state May' d d' := by
  cases h with
  | cut hdirectory hold hn => exact .cut hdirectory hold (himp _ hn)

theorem AppendChange.whole
    (hc : AppendChange name state (medium.Fails state) d d') (htears : medium.tears = false) :
    medium.unknown state = true ∧
      AppendChange name state (· = (recordLine state).length) d d' := by
  have hfails : ∀ n, medium.Fails state n →
      medium.unknown state = true ∧ n = (recordLine state).length := by
    simp [Medium.Fails, htears]
  cases hc with
  | cut hdirectory hold hn => exact ⟨(hfails _ hn).1, .cut hdirectory hold (hfails _ hn).2⟩

theorem appendRecord_whole :
    appendRecord.whole name state d directory old =
      d.appended name state (recordLine state).length directory old := by
  simp [appendRecord.whole, Disk.appended, recordLength]

theorem appendRecord_ok {u : Unit} (h : (appendRecord medium name state).effect d = .ok (u, d')) :
    AppendChange name state (· = (recordLine state).length) d d' := by
  simp only [appendRecord] at h
  split at h
  · cases h
  rename_i directory hdirectory
  split at h
  · cases h
  rename_i old hold
  cases h
  rw [appendRecord_whole]
  exact .cut hdirectory hold rfl

theorem appendRecord_part (n : Nat) : appendRecord.appendPart medium name state n d = d ∨
    AppendChange name state (medium.Fails state) d
      (appendRecord.appendPart medium name state n d) := by
  unfold appendRecord.appendPart
  split
  · exact .inl rfl
  rename_i directory hdirectory
  split
  · exact .inl rfl
  rename_i old hold
  split
  · exact .inl rfl
  · rename_i htears
    exact .inr (.cut (n := n) hdirectory hold (.inl (by simpa using htears)))

theorem appendRecord_failed (c : Cut) : (appendRecord medium name state).failed c d = d ∨
    AppendChange name state (medium.Fails state) d ((appendRecord medium name state).failed c d) := by
  cases c with
  | before => exact .inl rfl
  | within n => exact appendRecord_part n
  | after =>
    simp only [appendRecord]
    split
    · exact .inl rfl
    rename_i directory hdirectory
    split
    · exact .inl rfl
    rename_i old hold
    split
    · rename_i hunknown
      rw [appendRecord_whole]
      exact .inr (.cut hdirectory hold (.inr ⟨hunknown, rfl⟩))
    · exact .inl rfl

theorem keeps_appendRecord (stable : Stable A I)
    (hclosed : ∀ t t', I t → AppendChange name state (medium.Cuts state) t t' → I t') :
    Keeps A I ((appendRecord medium name state).run : JobProg Unit) := by
  have hchange : ∀ t t', I t → t' = t ∨ AppendChange name state (medium.Fails state) t t' → I t' := by
    rintro t t' ht (rfl | hc)
    · exact ht
    · exact hclosed t t' ht (hc.mono fun _ => Medium.Fails.cuts)
  refine Keeps.step stable (fun t ht => ?_) (fun n t ht => hchange t _ ht (appendRecord_part n))
    (fun c t ht => hchange t _ ht (appendRecord_failed c))
  refine Step.done_of_ok (fun t _ t' ht heff => ?_) ht
  exact hclosed t _ ht ((appendRecord_ok heff).mono fun _ => .inr)

/-- The three ends of an append. -/
theorem appendRecord_meets :
    (appendRecord medium name state).Meets A
      (fun _ t => AppendChange name state (· = (recordLine state).length) d t)
      (fun _ t => t = d ∨ AppendChange name state (medium.Fails state) d t)
      (fun t => t = d ∨ AppendChange name state (medium.Cuts state) d t) d := by
  constructor
  · exact fun _ _ heff => appendRecord_ok heff
  · exact fun _ _ => .inl rfl
  · exact fun c _ => appendRecord_failed c
  · intro c _
    cases c with
    | before => exact .inl rfl
    | within n => exact (appendRecord_part n).imp id fun h => h.mono fun _ => Medium.Fails.cuts
    | after =>
      simp only [Step.cut, Step.done]
      cases heff : (appendRecord medium name state).effect d with
      | ok r => exact .inr ((appendRecord_ok heff).mono fun _ h => .inr h)
      | error e => exact .inl rfl

theorem wp_appendRecord :
    Wp Quiet ((appendRecord medium name state).run : JobProg Unit)
      (fun _ t => AppendChange name state (· = (recordLine state).length) d t)
      (fun _ t => t = d ∨ AppendChange name state (medium.Fails state) d t)
      (fun t => t = d ∨ AppendChange name state (medium.Cuts state) d t) d :=
  Wp.step_quiet appendRecord_meets

end Append

/-! ### Cleaning up -/

section Cleanup

variable {A : Event Intrusion → Prop} {I J : Disk → Prop} {path jobId : String}

/-- Removing the private directory does not break the invariant, wherever it stops. -/
structure Disposable (jobId : String) (J : Disk → Prop) : Prop where
  done : ∀ t, J t → J (t.withoutJob jobId)
  part : ∀ t n, J t → J (removeJob.removePart jobId n t)

theorem keeps_removeJob (stable : Stable A J) (h : Disposable jobId J) :
    Keeps A J ((removeJob jobId).run : JobProg Unit) := by
  refine Keeps.step stable (fun t ht => h.done t ht) (fun n t ht => h.part t n ht) (fun c t ht => ?_)
  cases c with
  | before => exact ht
  | within n => exact h.part t n ht
  | after => exact ht

theorem keeps_removeJob_found (stable : Stable A J) (h : Disposable jobId J) :
    Keeps A J (do if ← look (·.hasJob jobId) then (removeJob jobId).run : JobProg Unit) := by
  refine Keeps.bind (Keeps.look _) fun found => ?_
  cases found with
  | false => exact Keeps.pure ()
  | true => exact keeps_removeJob stable h

/-- The reserved directory goes first; `J` holds from there on. -/
theorem wp_localCleanupJob {root : RegisteredRoot} (hI : Stable A I) (hJ : Stable A J)
    (hnone : ∀ t, I t → t.reserved root.canonicalPath jobId = none → J t)
    (hdone : ∀ t, I t → J (t.setReserved root.canonicalPath jobId none))
    (hpart : ∀ t n, I t → I (removeReserved.removePart root.canonicalPath jobId n t))
    (hjob : Disposable jobId J) {d : Disk} (hd : I d) :
    Wp A (localCleanupJob root jobId) (fun _ => J) (fun _ t => I t ∨ J t) (fun t => I t ∨ J t) d := by
  have hprivate : ∀ t, J t → Wp A
      (do if ← look (·.hasJob jobId) then (removeJob jobId).run : JobProg Unit)
      (fun _ => J) (fun _ t => I t ∨ J t) (fun t => I t ∨ J t) t :=
    fun t ht => (keeps_removeJob_found hJ hjob t ht).mono (fun _ _ h => h) (fun _ _ h => .inr h)
      (fun _ h => .inr h)
  refine Wp.bind (Wp.look ?_)
  cases hreserved : d.reserved root.canonicalPath jobId with
  | none =>
    simp only [Option.isSome_none, Bool.false_eq_true, if_false]
    exact hprivate d (hnone d hd hreserved)
  | some job =>
    simp only [Option.isSome_some, if_true]
    refine Wp.bind (Wp.lift (fun _ _ => ?_) (fun _ _ => .inl hd))
    refine Wp.bind (Wp.step_stable hd hI fun t ht => ?_)
    constructor
    · intro _ t' heff
      cases heff
      exact hprivate _ (hdone t ht)
    · intro e heff
      cases heff
    · intro c _
      cases c with
      | before => exact .inl ht
      | within n => exact .inl (hpart t n ht)
      | after => exact .inl ht
    · intro c _
      cases c with
      | before => exact .inl ht
      | within n => exact .inl (hpart t n ht)
      | after => exact .inr (hdone t ht)

theorem wp_cleanupPreparedJob_of (prepared : PreparedJob) (hI : Stable A I) (hJ : Stable A J)
    (hnone : ∀ t, I t →
      t.reserved prepared.header.root.canonicalPath prepared.header.jobId = none → J t)
    (hdone : ∀ t, I t →
      J (t.setReserved prepared.header.root.canonicalPath prepared.header.jobId none))
    (hpart : ∀ t n, I t → I (removeReserved.removePart prepared.header.root.canonicalPath
      prepared.header.jobId n t))
    (hjob : Disposable prepared.header.jobId J) {d : Disk} (hd : I d) :
    Wp A (cleanupPreparedJob prepared) (fun _ => J) (fun _ t => I t ∨ J t)
      (fun t => I t ∨ J t) d := by
  have hbefore := keeps_checkpoint hI prepared.policy ⟨.before, .cleanupJob, none⟩
  have hafter := keeps_checkpoint hJ prepared.policy ⟨.after, .cleanupJob, none⟩
  refine Wp.bind ((hbefore d hd).mono (fun _ t ht => ?_) (fun _ _ h => .inl h) (fun _ h => .inl h))
  refine Wp.bind ((wp_localCleanupJob hI hJ hnone hdone hpart hjob ht).mono (fun _ t ht => ?_)
    (fun _ _ h => h) (fun _ h => h))
  exact (hafter t ht).mono (fun _ _ h => h) (fun _ _ h => .inr h) (fun _ h => .inr h)

theorem keeps_localCleanupJob (root : RegisteredRoot) (jobId : String) (stable : Stable A I)
    (hdone : ∀ t, I t → I (t.setReserved root.canonicalPath jobId none))
    (hpart : ∀ t n, I t → I (removeReserved.removePart root.canonicalPath jobId n t))
    (hjob : Disposable jobId I) : Keeps A I (localCleanupJob root jobId) :=
  fun _ hd => (wp_localCleanupJob stable stable (fun _ h _ => h) hdone hpart hjob hd).mono
    (fun _ _ h => h) (fun _ _ h => h.elim id id) (fun _ h => h.elim id id)

theorem keeps_cleanupPreparedJob {prepared : PreparedJob} (stable : Stable A I)
    (hdone : ∀ t, I t →
      I (t.setReserved prepared.header.root.canonicalPath prepared.header.jobId none))
    (hpart : ∀ t n, I t → I (removeReserved.removePart prepared.header.root.canonicalPath
      prepared.header.jobId n t))
    (hjob : Disposable prepared.header.jobId I) : Keeps A I (cleanupPreparedJob prepared) :=
  keeps_runMutation stable _ _ _ (keeps_localCleanupJob _ _ stable hdone hpart hjob)

theorem keeps_cleanupPrivatePreparedJob (prepared : PreparedJob) (stable : Stable A I)
    (hjob : Disposable prepared.header.jobId I) : Keeps A I (cleanupPrivatePreparedJob prepared) :=
  keeps_runMutation stable _ _ _ (keeps_removeJob_found stable hjob)

end Cleanup

end Se7en

import Se7enService.DiskChange
set_option autoImplicit false

/-! What the operations of one job leave alone. -/

namespace Se7en
open Faulty

/-! ### Reading an updated disk -/

section Updates

variable (d : Disk) (path : String) (target : TargetPath) (node : Option Node) (jobId : String)
  (job : Option ReservedJob) (mutation : Mutation)

@[simp] theorem Disk.jobs_setNode : (d.setNode path target node).jobs = d.jobs := rfl
@[simp] theorem Disk.entry_setNode : (d.setNode path target node).entry = d.entry := rfl
@[simp] theorem Disk.history_setNode : (d.setNode path target node).history = d.history := rfl
@[simp] theorem Disk.jobs_setReserved : (d.setReserved path jobId job).jobs = d.jobs := rfl
@[simp] theorem Disk.entry_setReserved : (d.setReserved path jobId job).entry = d.entry := rfl
@[simp] theorem Disk.history_setReserved : (d.setReserved path jobId job).history = d.history := rfl
@[simp] theorem Disk.jobs_logged : (d.logged mutation).jobs = d.jobs := rfl
@[simp] theorem Disk.entry_logged : (d.logged mutation).entry = d.entry := rfl
@[simp] theorem Disk.root_logged : (d.logged mutation).root = d.root := rfl
@[simp] theorem Disk.recorded_logged :
    (d.logged mutation).history.recorded = d.history.recorded := rfl

@[simp] theorem Disk.target_logged (q : String) (p : TargetPath) :
    (d.logged mutation).target q p = d.target q p := rfl

@[simp] theorem Disk.reserved_logged (q j : String) :
    (d.logged mutation).reserved q j = d.reserved q j := rfl

@[simp] theorem Disk.backup_logged (q j : String) (index : UInt32) :
    (d.logged mutation).backup q j index = d.backup q j index := rfl

@[simp] theorem Disk.prepared_logged (q j : String) (index : UInt32) :
    (d.logged mutation).prepared q j index = d.prepared q j index := rfl

variable {path target jobId}

theorem Disk.root_setNode_of_ne {q : String} (h : q ≠ path) :
    (d.setNode path target node).root q = d.root q := update_of_ne h

theorem Disk.root_setReserved_of_ne {q : String} (h : q ≠ path) :
    (d.setReserved path jobId job).root q = d.root q := update_of_ne h

@[simp] theorem Disk.rootEntry_setNode (q : String) :
    ((d.setNode path target node).root q).entry = (d.root q).entry := by
  by_cases h : q = path
  · simp [setNode, setRoot, h]
  · rw [root_setNode_of_ne _ _ h]

@[simp] theorem Disk.rootEntry_setReserved (q : String) :
    ((d.setReserved path jobId job).root q).entry = (d.root q).entry := by
  by_cases h : q = path
  · simp [setReserved, setRoot, h]
  · rw [root_setReserved_of_ne _ _ h]

@[simp] theorem Disk.target_setNode_self :
    (d.setNode path target node).target path target = node := by
  simp [Disk.target, setNode, setRoot]

theorem Disk.target_setNode_of_ne {p : TargetPath} (h : p ≠ target) :
    (d.setNode path target node).target path p = d.target path p := by
  simp [Disk.target, setNode, setRoot, update_of_ne h]

@[simp] theorem Disk.target_setReserved (q : String) (p : TargetPath) :
    (d.setReserved path jobId job).target q p = d.target q p := by
  by_cases h : q = path
  · simp [Disk.target, setReserved, setRoot, h]
  · simp [Disk.target, root_setReserved_of_ne _ _ h]

@[simp] theorem Disk.reserved_setNode (q j : String) :
    (d.setNode path target node).reserved q j = d.reserved q j := by
  by_cases h : q = path
  · simp [Disk.reserved, setNode, setRoot, h]
  · simp [Disk.reserved, root_setNode_of_ne _ _ h]

@[simp] theorem Disk.backup_setNode (q j : String) (index : UInt32) :
    (d.setNode path target node).backup q j index = d.backup q j index := by
  simp [Disk.backup]

@[simp] theorem Disk.prepared_setNode (q j : String) (index : UInt32) :
    (d.setNode path target node).prepared q j index = d.prepared q j index := by
  simp [Disk.prepared]

@[simp] theorem Disk.reserved_setReserved_self :
    (d.setReserved path jobId job).reserved path jobId = job := by
  simp [Disk.reserved, setReserved, setRoot]

theorem Disk.reserved_setReserved_of_ne {j : String} (h : j ≠ jobId) :
    (d.setReserved path jobId job).reserved path j = d.reserved path j := by
  simp [Disk.reserved, setReserved, setRoot, update_of_ne h]

end Updates

theorem Disk.backup_of_reserved {d : Disk} {path jobId : String} {job : ReservedJob}
    (h : d.reserved path jobId = some job) : d.backup path jobId = job.backup := by
  funext index
  simp [Disk.backup, h]

theorem Disk.prepared_of_reserved {d : Disk} {path jobId : String} {job : ReservedJob}
    (h : d.reserved path jobId = some job) : d.prepared path jobId = job.prepared := by
  funext index
  simp [Disk.prepared, h]

/-! ### The frame of a job -/

/-- A path that one of these entries is about. -/
def Targeted (entries : List JournalEntry) (target : TargetPath) : Prop :=
  ∃ entry ∈ entries, targetPath entry.path = target

/-- What a job may not touch: another root, another job, and what its entries are not
about, apart from directories that it creates above its targets. -/
structure Frame (path jobId : String) (entries : List JournalEntry) (d d' : Disk) : Prop where
  root : ∀ q, q ≠ path → d'.root q = d.root q
  rootEntry : (d'.root path).entry = (d.root path).entry
  target : ∀ p, ¬ Targeted entries p → d'.target path p = d.target path p ∨
    d.target path p = none ∧ d'.target path p = some .directory ∧
      ∃ entry ∈ entries, p <+: targetPath entry.path
  reserved : ∀ j, j ≠ jobId → d'.reserved path j = d.reserved path j
  hasJob : ∀ name, name ≠ jobId → d'.hasJob name = d.hasJob name
  entry : ∀ name, name ≠ jobId → d'.entry name = d.entry name
  recorded : ∀ name, name ≠ jobId → d'.history.recorded name = d.history.recorded name

/-- What moving the files of these entries leaves alone, besides. -/
structure Moved (path jobId : String) (entries : List JournalEntry) (d d' : Disk) : Prop extends
    Frame path jobId entries d d' where
  jobs : d'.jobs = d.jobs
  directories : d'.entry = d.entry
  records : d'.history.recorded = d.history.recorded
  backup : ∀ index, (∀ entry ∈ entries, entry.transactionIndex ≠ index) →
    d'.backup path jobId index = d.backup path jobId index
  prepared : ∀ index, (∀ entry ∈ entries, entry.preparedIndex ≠ some index) →
    d'.prepared path jobId index = d.prepared path jobId index

section Frames

variable {path jobId : String} {entries : List JournalEntry} {d₀ d d' : Disk}

theorem Frame.refl : Frame path jobId entries d d where
  root _ _ := rfl
  rootEntry := rfl
  target _ _ := .inl rfl
  reserved _ _ := rfl
  hasJob _ _ := rfl
  entry _ _ := rfl
  recorded _ _ := rfl

theorem Frame.trans (h : Frame path jobId entries d₀ d) (h' : Frame path jobId entries d d') :
    Frame path jobId entries d₀ d' where
  root q hq := (h'.root q hq).trans (h.root q hq)
  rootEntry := h'.rootEntry.trans h.rootEntry
  target p hp := by
    obtain hsame' | ⟨hnone', hdir', hent'⟩ := h'.target p hp
    · rw [hsame']
      exact h.target p hp
    · obtain hsame | ⟨-, hdir, -⟩ := h.target p hp
      · exact .inr ⟨hsame ▸ hnone', hdir', hent'⟩
      · rw [hdir] at hnone'
        cases hnone'
  reserved j hj := (h'.reserved j hj).trans (h.reserved j hj)
  hasJob name hn := (h'.hasJob name hn).trans (h.hasJob name hn)
  entry name hn := (h'.entry name hn).trans (h.entry name hn)
  recorded name hn := (h'.recorded name hn).trans (h.recorded name hn)

theorem Frame.directory (h : Frame path jobId entries d d') {name : String} (hn : name ≠ jobId) :
    d'.directory name = d.directory name := by
  simp [Disk.directory, h.hasJob name hn, h.entry name hn]

theorem Frame.mono {more : List JournalEntry} (h : Frame path jobId entries d d')
    (hsub : entries ⊆ more) : Frame path jobId more d d' where
  root := h.root
  rootEntry := h.rootEntry
  target p hp := by
    obtain hsame | ⟨hnone, hdir, entry, he, hinitial⟩ :=
      h.target p (fun ⟨entry, he, heq⟩ => hp ⟨entry, hsub he, heq⟩)
    · exact .inl hsame
    · exact .inr ⟨hnone, hdir, entry, hsub he, hinitial⟩
  reserved := h.reserved
  hasJob := h.hasJob
  entry := h.entry
  recorded := h.recorded

theorem Moved.refl : Moved path jobId entries d d where
  toFrame := Frame.refl
  jobs := rfl
  directories := rfl
  records := rfl
  backup _ _ := rfl
  prepared _ _ := rfl

theorem Moved.trans (h : Moved path jobId entries d₀ d) (h' : Moved path jobId entries d d') :
    Moved path jobId entries d₀ d' where
  toFrame := h.toFrame.trans h'.toFrame
  jobs := h'.jobs.trans h.jobs
  directories := h'.directories.trans h.directories
  records := h'.records.trans h.records
  backup index hi := (h'.backup index hi).trans (h.backup index hi)
  prepared index hi := (h'.prepared index hi).trans (h.prepared index hi)

theorem Moved.mono {more : List JournalEntry} (h : Moved path jobId entries d d')
    (hsub : entries ⊆ more) : Moved path jobId more d d' where
  toFrame := h.toFrame.mono hsub
  jobs := h.jobs
  directories := h.directories
  records := h.records
  backup index hi := h.backup index fun entry he => hi entry (hsub he)
  prepared index hi := h.prepared index fun entry he => hi entry (hsub he)

theorem Moved.directory (h : Moved path jobId entries d d') (name : String) :
    d'.directory name = d.directory name := by
  simp [Disk.directory, Disk.hasJob, h.jobs, h.directories]

theorem Moved.logged (h : Moved path jobId entries d₀ d) (mutation : Mutation) :
    Moved path jobId entries d₀ (d.logged mutation) := by
  refine h.trans ?_
  exact { Moved.refl (d := d) with }

/-- Anything may happen at a target of an entry. -/
theorem Moved.setNode (h : Moved path jobId entries d₀ d) {target : TargetPath}
    (ht : Targeted entries target) (node : Option Node) :
    Moved path jobId entries d₀ (d.setNode path target node) := by
  refine h.trans ?_
  constructor
  · constructor
    · exact fun q hq => d.root_setNode_of_ne node hq
    · simp
    · intro p hp
      refine .inl (d.target_setNode_of_ne node ?_)
      rintro rfl
      exact hp ht
    all_goals simp [Disk.hasJob]
  all_goals simp

/-- A new directory above a target of an entry. -/
theorem Moved.setDirectory (h : Moved path jobId entries d₀ d) {target : TargetPath}
    (hnone : d.target path target = none) {entry : JournalEntry} (he : entry ∈ entries)
    (hp : target <+: targetPath entry.path) :
    Moved path jobId entries d₀ (d.setNode path target (some .directory)) := by
  refine h.trans ?_
  constructor
  · constructor
    · exact fun q hq => d.root_setNode_of_ne _ hq
    · simp
    · intro p _
      by_cases hpt : p = target
      · subst hpt
        exact .inr ⟨hnone, by simp, entry, he, hp⟩
      · exact .inl (d.target_setNode_of_ne _ hpt)
    all_goals simp [Disk.hasJob]
  all_goals simp

theorem Moved.setReserved (h : Moved path jobId entries d₀ d) {job : Option ReservedJob}
    (hbackup : ∀ index, (∀ entry ∈ entries, entry.transactionIndex ≠ index) →
      (job >>= (·.backup index)) = d.backup path jobId index)
    (hprepared : ∀ index, (∀ entry ∈ entries, entry.preparedIndex ≠ some index) →
      (job >>= (·.prepared index)) = d.prepared path jobId index) :
    Moved path jobId entries d₀ (d.setReserved path jobId job) := by
  refine h.trans ?_
  constructor
  · constructor
    · exact fun q hq => d.root_setReserved_of_ne job hq
    · simp
    · simp
    · exact fun j hj => d.reserved_setReserved_of_ne job hj
    all_goals simp [Disk.hasJob]
  · simp
  · simp
  · simp
  · intro index hi
    simpa [Disk.backup] using hbackup index hi
  · intro index hi
    simpa [Disk.prepared] using hprepared index hi

end Frames

/-! ### The entries keep their frame -/

section Entries

variable {prepared : PreparedJob} {path jobId : String} {entries : List JournalEntry}
  {entry : JournalEntry} {d₀ d d' : Disk}

theorem Moved.withDirectory (hd : Moved path jobId entries d₀ d) (he : entry ∈ entries)
    {target : TargetPath} (hnone : d.target path target = none)
    (hp : target <+: (targetPath entry.path).dropLast) :
    Moved path jobId entries d₀ (d.withDirectory path target) :=
  hd.setDirectory hnone he (hp.trans (List.dropLast_prefix _))

theorem Moved.leaf (hd : Moved path jobId entries d₀ d) (hnone : d.reserved path jobId = none) :
    Moved path jobId entries d₀ (d.setReserved path jobId (some .empty)) := by
  refine hd.setReserved ?_ ?_ <;> simp [Disk.backup, Disk.prepared, hnone, ReservedJob.empty]

theorem Moved.applyChange (hd : Moved path jobId entries d₀ d) (he : entry ∈ entries)
    (h : ApplyChange path jobId entry d d') : Moved path jobId entries d₀ d' := by
  cases h with
  | directory hnone hp => exact hd.withDirectory he hnone hp
  | leaf hnone => exact hd.leaf hnone
  | backUp horiginal hfile hjob =>
    refine Moved.logged (Moved.setReserved (hd.setNode ⟨entry, he, rfl⟩ _) ?_ ?_) _
    · intro index hi
      simp [Disk.backup, hjob, update_of_ne (hi entry he).symm]
    · intro index _
      simp [Disk.prepared, hjob]
  | install hindex hjob hfile =>
    refine Moved.logged (Moved.setReserved (hd.setNode ⟨entry, he, rfl⟩ _) ?_ ?_) _
    · intro i _
      simp [Disk.backup, hjob]
    · intro i hi
      have hne : i ≠ _ := fun h => hi entry he (h ▸ hindex)
      simp [Disk.prepared, hjob, update_of_ne hne]

theorem Moved.rollbackChange (hd : Moved path jobId entries d₀ d) (he : entry ∈ entries)
    (h : RollbackChange path jobId entry d d') : Moved path jobId entries d₀ d' := by
  cases h with
  | directory hnone hp => exact hd.withDirectory he hnone hp
  | delete hfile _ => exact (hd.setNode ⟨entry, he, rfl⟩ _).logged _
  | restore horiginal hjob hfile =>
    refine Moved.logged (Moved.setReserved (hd.setNode ⟨entry, he, rfl⟩ _) ?_ ?_) _
    · intro i hi
      simp [Disk.backup, hjob, update_of_ne (hi entry he).symm]
    · intro i _
      simp [Disk.prepared, hjob]

/-- The disks that differ from `d₀` by what moving files for these entries can change. -/
abbrev PreparedJob.Moves (prepared : PreparedJob) (entries : List JournalEntry) (d₀ : Disk) :
    Disk → Prop :=
  Moved prepared.header.root.canonicalPath prepared.header.jobId entries d₀

theorem moves_applyEntry (hpolicy : prepared.policy.usesAtomicReplacement = false)
    (he : entry ∈ entries) : Keeps Quiet (prepared.Moves entries d₀) (applyEntry prepared entry) :=
  keeps_applyEntry hpolicy Stable.quiet fun _ _ ht h => ht.applyChange he h

theorem moves_rollbackEntry (hpolicy : prepared.policy.usesAtomicReplacement = false)
    (he : entry ∈ entries) :
    Keeps Quiet (prepared.Moves entries d₀) (rollbackEntry prepared entry) :=
  keeps_rollbackEntry hpolicy Stable.quiet fun _ _ ht h => ht.rollbackChange he h

theorem moves_applyEntries (hpolicy : prepared.policy.usesAtomicReplacement = false)
    {rest : List JournalEntry} (hrest : rest ⊆ entries) :
    Keeps Quiet (prepared.Moves entries d₀) (applyEntries prepared rest) :=
  keeps_applyEntries hpolicy Stable.quiet fun _ he _ _ ht h => ht.applyChange (hrest he) h

theorem moves_rollbackReversed (hpolicy : prepared.policy.usesAtomicReplacement = false)
    {rest : List JournalEntry} (hrest : rest ⊆ entries) :
    Keeps Quiet (prepared.Moves entries d₀) (rollbackReversed prepared rest) :=
  keeps_rollbackReversed hpolicy Stable.quiet fun _ he _ _ ht h => ht.rollbackChange (hrest he) h

theorem moves_rollbackEntries (hpolicy : prepared.policy.usesAtomicReplacement = false) :
    Keeps Quiet (prepared.Moves prepared.header.entries d₀) (rollbackEntries prepared) :=
  keeps_rollbackEntries hpolicy Stable.quiet fun _ he _ _ ht h => ht.rollbackChange he h

end Entries

/-! ### Private directories -/

/-- What happens inside one private job directory. -/
structure Private (jobId : String) (d d' : Disk) : Prop where
  root : d'.root = d.root
  hasJob : ∀ name, name ≠ jobId → d'.hasJob name = d.hasJob name
  entry : ∀ name, name ≠ jobId → d'.entry name = d.entry name
  recorded : ∀ name, name ≠ jobId → d'.history.recorded name = d.history.recorded name

theorem Private.refl {jobId : String} {d : Disk} : Private jobId d d where
  root := rfl
  hasJob _ _ := rfl
  entry _ _ := rfl
  recorded _ _ := rfl

theorem Private.frame {path jobId : String} {entries : List JournalEntry} {d d' : Disk}
    (h : Private jobId d d') : Frame path jobId entries d d' where
  root _ _ := by rw [h.root]
  rootEntry := by rw [h.root]
  target _ _ := .inl (by simp [Disk.target, h.root])
  reserved _ _ := by simp [Disk.reserved, h.root]
  hasJob := h.hasJob
  entry := h.entry
  recorded := h.recorded

theorem Private.trans {jobId : String} {d₀ d d' : Disk} (h : Private jobId d₀ d)
    (h' : Private jobId d d') : Private jobId d₀ d' where
  root := h'.root.trans h.root
  hasJob name hn := (h'.hasJob name hn).trans (h.hasJob name hn)
  entry name hn := (h'.entry name hn).trans (h.entry name hn)
  recorded name hn := (h'.recorded name hn).trans (h.recorded name hn)

section PrivateSteps

variable (d : Disk) (jobId : String)

theorem private_setEntry (directory : JobDirectory) : Private jobId d (d.setEntry jobId directory) where
  root := rfl
  hasJob _ _ := rfl
  entry _ hn := update_of_ne hn
  recorded _ _ := rfl

theorem private_record (states : List JournalState) : Private jobId d (d.record jobId states) where
  root := rfl
  hasJob _ _ := rfl
  entry _ _ := rfl
  recorded _ hn := update_of_ne hn

theorem private_appendBytes (directory : JobDirectory) (old new : Bytes) :
    Private jobId d (appendBytes d jobId directory old new) := by
  unfold appendBytes
  split
  · exact private_setEntry d jobId _
  · exact { private_setEntry d jobId { directory with journal := some (old ++ new) } with }

theorem private_appended (state : JournalState) (n : Nat) (directory : JobDirectory)
    (old : Bytes) : Private jobId d (d.appended jobId state n directory old) := by
  unfold Disk.appended
  split
  · exact (private_appendBytes d jobId directory old _).trans (private_record _ jobId _)
  · exact private_appendBytes d jobId directory old _

variable {d jobId} in
theorem AppendChange.private {d' : Disk} {state : JournalState} {May : Nat → Prop}
    (h : AppendChange jobId state May d d') : Private jobId d d' := by
  cases h
  exact private_appended _ _ _ _ _ _

theorem private_removeJob_part (n : Nat) : Private jobId d (removeJob.removePart jobId n d) := by
  unfold removeJob.removePart
  split
  · exact Private.refl
  · exact private_setEntry d jobId _

theorem private_removeJob_done :
    Private jobId d (d.withoutJob jobId) where
  root := rfl
  hasJob name hn := by
    cases hjobs : d.jobs with
    | none => simp [Disk.withoutJob, Disk.hasJob, hjobs]
    | some names => simp [Disk.withoutJob, Disk.hasJob, hjobs, hn]
  entry _ _ := rfl
  recorded _ _ := rfl

end PrivateSteps

/-! ### Whole jobs -/

section Jobs

variable {prepared : PreparedJob} {path jobId : String} {entries : List JournalEntry} {d₀ : Disk}

theorem Frame.setReserved {d : Disk} (h : Frame path jobId entries d₀ d)
    (job : Option ReservedJob) : Frame path jobId entries d₀ (d.setReserved path jobId job) := by
  refine h.trans ?_
  constructor
  · exact fun q hq => d.root_setReserved_of_ne job hq
  · simp
  · simp
  · exact fun j hj => d.reserved_setReserved_of_ne job hj
  all_goals simp [Disk.hasJob]

theorem Frame.disposable : Disposable jobId (Frame path jobId entries d₀) where
  done t ht := ht.trans (private_removeJob_done t jobId).frame
  part t n ht := ht.trans (private_removeJob_part t jobId n).frame

theorem Frame.removePart {d : Disk} (h : Frame path jobId entries d₀ d) (n : Nat) :
    Frame path jobId entries d₀ (removeReserved.removePart path jobId n d) := by
  unfold removeReserved.removePart
  split
  · exact h
  · exact h.setReserved _

theorem frame_localCleanupJob {root : RegisteredRoot} :
    Keeps Quiet (Frame root.canonicalPath jobId entries d₀) (localCleanupJob root jobId) :=
  keeps_localCleanupJob root jobId Stable.quiet (fun _ ht => ht.setReserved none)
    (fun _ n ht => ht.removePart n) Frame.disposable

/-- The disks that differ from `d₀` by what the job itself may change. -/
abbrev PreparedJob.Frames (prepared : PreparedJob) (entries : List JournalEntry) (d₀ : Disk) :
    Disk → Prop :=
  Frame prepared.header.root.canonicalPath prepared.header.jobId entries d₀

theorem frame_cleanupPreparedJob :
    Keeps Quiet (prepared.Frames entries d₀) (cleanupPreparedJob prepared) :=
  keeps_cleanupPreparedJob Stable.quiet (fun _ ht => ht.setReserved none)
    (fun _ n ht => ht.removePart n) Frame.disposable

theorem frame_cleanupPrivatePreparedJob :
    Keeps Quiet (prepared.Frames entries d₀) (cleanupPrivatePreparedJob prepared) :=
  keeps_cleanupPrivatePreparedJob prepared Stable.quiet Frame.disposable

theorem frame_appendState (state : JournalState) :
    Keeps Quiet (prepared.Frames entries d₀) (appendState prepared state) := by
  exact keeps_appendRecord Stable.quiet fun t t' ht hc => ht.trans hc.private.frame

theorem keeps_frame_of_moved {p : JobProg Unit}
    (h : ∀ d, Keeps Quiet (Moved path jobId entries d) p) :
    Keeps Quiet (Frame path jobId entries d₀) p := by
  refine Keeps.of_relation (R := Frame path jobId entries) (fun _ _ _ => Frame.trans)
    (fun d => ?_) d₀
  exact (h d d Moved.refl).mono (fun _ _ ht => ht.toFrame) (fun _ _ ht => ht.toFrame)
    (fun _ ht => ht.toFrame)

/-- A rollback fails with the error it was given, or with the one of a rollback that is not complete. -/
theorem wp_rollBack_of {A : Event Intrusion → Prop} {R C : Disk → Prop}
    {E : MaintenanceError → Disk → Prop} {d : Disk} {error : MaintenanceError} {incomplete : String}
    (happend : Wp A (appendState prepared .rollingBack) (fun _ => R) (fun _ => R) C d)
    (hundo : ∀ t, R t → Wp A (do rollbackEntries prepared; cleanupPreparedJob prepared)
      (fun _ => E error) (fun _ => E (recoveryError incomplete)) C t) :
    Wp A (rollBack prepared error incomplete) (fun _ _ => False) E C d := by
  have hattempt : Wp A (attempt (appendState prepared .rollingBack)) (fun _ => R) E C d :=
    Wp.attempt happend
  refine Wp.bind (hattempt.mono ?_ (fun _ _ h => h) (fun _ h => h))
  intro _ t ht
  refine Wp.bind (Wp.attempt ((hundo t ht).mono ?_ ?_ (fun _ h => h)))
  · exact fun _ _ h => Wp.throw h
  · exact fun _ _ h => Wp.throw h

theorem frame_rollBack (hpolicy : prepared.policy.usesAtomicReplacement = false)
    (error : MaintenanceError) (incomplete : String) :
    Keeps Quiet (prepared.Frames prepared.header.entries d₀) (rollBack prepared error incomplete) := by
  refine Keeps.bind (Keeps.attempt (frame_appendState _)) fun _ => ?_
  refine Keeps.bind (Keeps.attempt (Keeps.bind ?_ fun _ => frame_cleanupPreparedJob)) fun outcome => ?_
  · exact keeps_frame_of_moved fun _ => moves_rollbackEntries hpolicy
  · cases outcome <;> exact Keeps.throw _

theorem frame_commitFileSet (hpolicy : prepared.policy.usesAtomicReplacement = false) :
    Keeps Quiet (prepared.Frames prepared.header.entries d₀) (commitFileSet prepared) := by
  refine Keeps.bind (keeps_inspect _) fun _ => ?_
  refine Keeps.bind (keeps_verifyOriginalSnapshots _) fun _ => ?_
  refine Keeps.bind (frame_appendState _) fun _ => ?_
  refine Keeps.bind (Keeps.attempt (keeps_frame_of_moved fun _ =>
    moves_applyEntries hpolicy (List.Subset.refl _))) fun applied => ?_
  cases applied with
  | error e => exact frame_rollBack hpolicy _ _
  | ok =>
    refine Keeps.bind (Keeps.attempt (frame_appendState _)) fun committed => ?_
    cases committed with
    | error e => exact frame_rollBack hpolicy _ _
    | ok =>
      exact Keeps.bind (Keeps.attempt frame_cleanupPreparedJob) fun _ => Keeps.pure _

end Jobs

end Se7en

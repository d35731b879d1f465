import Se7enService.CrashAtomic
import Se7enService.DirectUpdate
set_option autoImplicit false

/-! The atomic operations of a direct update are made of the moves that `DiskChange` and
`EntryUndo` know: what they do to a disk, and to the files of one entry. -/

namespace Se7en
open Faulty

/-! ### Single steps as changes -/

section Steps

variable {path jobId : String} {entry : JournalEntry} {index : UInt32} {d d' : Disk} {u : Unit}

theorem createDirectory_ok {target : TargetPath}
    (h : (createDirectory path target).effect d = .ok (u, d')) :
    d.target path target = none ∧ d' = d.withDirectory path target := by
  simp only [createDirectory] at h
  split at h
  · cases h
  · rename_i hfree
    cases h
    simp only [Bool.or_eq_true, not_or, Bool.not_eq_true, Option.isSome_eq_false_iff,
      Option.isNone_iff_eq_none] at hfree
    exact ⟨hfree.1, rfl⟩

theorem renameToBackup_change (horiginal : entry.original.isSome)
    (h : (renameToBackup path jobId entry.transactionIndex (targetPath entry.path)).effect d =
      .ok (u, d')) : ApplyChange path jobId entry d d' := by
  simp only [renameToBackup] at h
  split at h
  · rename_i file job hfile hjob
    cases h
    exact .backUp horiginal hfile hjob
  · cases h

theorem renamePrepared_change (hindex : entry.preparedIndex = some index)
    (h : (renamePrepared path jobId index (targetPath entry.path)).effect d = .ok (u, d')) :
    ApplyChange path jobId entry d d' := by
  simp only [renamePrepared] at h
  split at h
  · cases h
  rename_i job hjob
  split at h
  · cases h
  rename_i file hfile
  split at h
  · cases h
  rename_i d'' hrename
  cases h
  rw [renameOnto_eq hrename]
  exact .install hindex hjob hfile

theorem renameBackup_change (horiginal : entry.original.isSome)
    (h : (renameBackup path jobId entry.transactionIndex (targetPath entry.path)).effect d =
      .ok (u, d')) :
    RollbackChange path jobId entry d d' ∧ (d.backup path jobId entry.transactionIndex).isSome := by
  simp only [renameBackup] at h
  split at h
  · cases h
  rename_i job hjob
  split at h
  · cases h
  rename_i file hfile
  split at h
  · cases h
  rename_i d'' hrename
  cases h
  rw [renameOnto_eq hrename]
  refine ⟨.restore horiginal hjob hfile, ?_⟩
  simp [Disk.backup, hjob, hfile]

theorem removeTargetFile_ok {fault : MaintenanceError}
    (h : (removeTargetFile path jobId (targetPath entry.path) fault).effect d = .ok (u, d')) :
    d.target path (targetPath entry.path) = none ∧ d' = d ∨
      ∃ file, d.target path (targetPath entry.path) = some (.file file) ∧
        d' = d.deleted path jobId entry file := by
  simp only [removeTargetFile] at h
  split at h
  · rename_i file hfile
    cases h
    exact .inr ⟨file, hfile, rfl⟩
  · rename_i hnone
    cases h
    exact .inl ⟨hnone, rfl⟩
  · cases h

theorem Disk.backup_deleted (file : File) (index : UInt32) :
    (d.deleted path jobId entry file).backup path jobId index = d.backup path jobId index := by
  simp [Disk.deleted]

end Steps

namespace Direct

/-! ### What the operations keep -/

section Keeping

variable {A : Event Intrusion → Prop} {I : Disk → Prop} {root : RegisteredRoot}
  {jobId : String} {entry : JournalEntry} {index : UInt32} {splits : Bool}

theorem keeps_lockParents (stable : Stable A I)
    (hclosed : ∀ t target, I t → t.target root.canonicalPath target = none →
      target <+: (targetPath entry.path).dropLast → I (t.withDirectory root.canonicalPath target))
    {components : List Name} {current : TargetPath}
    (hp : current ++ components <+: (targetPath entry.path).dropLast) :
    Keeps A I (lockParents root current components) := by
  induction components generalizing current with
  | nil => exact Keeps.pure ()
  | cons component rest ih =>
    have hrest : (current ++ [component]) ++ rest <+: (targetPath entry.path).dropLast := by
      simpa using hp
    refine Keeps.bind (Keeps.look _) fun node => ?_
    cases node with
    | none =>
      refine Keeps.bind (Keeps.whole (Step.Whole.unless .plain) stable fun t _ t' ht heff => ?_)
        fun _ => ih hrest
      obtain ⟨hnone, rfl⟩ := createDirectory_ok (Step.unless_ok heff).2
      exact hclosed t _ ht hnone ((List.prefix_append _ rest).trans hrest)
    | some node =>
      cases node with
      | directory => exact ih hrest
      | file => exact Keeps.throw _
      | reparse => exact Keeps.throw _

theorem keeps_lockedTarget (stable : Stable A I) (haccepted : Accepted entry.path.toList)
    (hclosed : ∀ t target, I t → t.target root.canonicalPath target = none →
      target <+: (targetPath entry.path).dropLast → I (t.withDirectory root.canonicalPath target)) :
    Keeps A I (lockedTarget root entry.path) := by
  unfold lockedTarget
  rw [relativeComponents_accepted haccepted]
  exact keeps_lockParents stable hclosed (List.prefix_refl _)

theorem keeps_lockedSource : Keeps A I (lockedSource root jobId) := by
  refine Keeps.bind (Keeps.look _) fun absent => ?_
  cases absent with
  | true => exact Keeps.throw _
  | false => exact Keeps.pure ()

theorem keeps_openSource (leaf : Leaf) : Keeps A I (openSource root jobId leaf index) := by
  refine Keeps.bind (Keeps.look _) fun file => ?_
  cases file with
  | none => exact Keeps.throw _
  | some file =>
    by_cases hlinks : file.links = 1
    · simp only [hlinks, ne_eq, not_true_eq_false, if_false]
      exact Keeps.pure ()
    · simp only [ne_eq, hlinks, not_false_eq_true, if_true]
      exact Keeps.throw _

theorem keeps_openTarget (path : String) : Keeps A I (openTarget root path) := by
  refine Keeps.bind (Keeps.look _) fun node => ?_
  cases node with
  | none => exact Keeps.throw _
  | some node =>
    cases node with
    | directory => exact Keeps.throw _
    | reparse => exact Keeps.throw _
    | file file =>
      by_cases hlinks : file.links = 1
      · simp only [hlinks, ne_eq, not_true_eq_false, if_false]
        exact Keeps.pure ()
      · simp only [ne_eq, hlinks, not_false_eq_true, if_true]
        exact Keeps.throw _

theorem keeps_lockedBackup (stable : Stable A I)
    (hclosed : ∀ t, I t → t.reserved root.canonicalPath jobId = none →
      I (t.setReserved root.canonicalPath jobId (some .empty))) :
    Keeps A I (lockedBackup root jobId) := by
  refine Keeps.whole (Step.Whole.unless .plain) stable fun t _ t' ht heff => ?_
  obtain ⟨-, heff⟩ := Step.unless_ok heff
  cases heff
  cases hjob : t.reserved root.canonicalPath jobId with
  | some job => exact ht
  | none => exact hclosed t ht hjob

theorem keeps_openFreeTarget (path : String) : Keeps A I (openFreeTarget root path) := by
  refine Keeps.bind (Keeps.look _) fun node => ?_
  cases node with
  | none => exact Keeps.pure ()
  | some node =>
    cases node with
    | directory => exact Keeps.throw _
    | reparse => exact Keeps.throw _
    | file file =>
      by_cases hlinks : file.links = 1
      · simp only [hlinks, ne_eq, not_true_eq_false, if_false]
        exact Keeps.pure ()
      · simp only [ne_eq, hlinks, not_false_eq_true, if_true]
        exact Keeps.throw _

/-- Everything before the call itself keeps `I`. -/
theorem wp_replaceAtomic {Q : Unit → Disk → Prop} {E : MaintenanceError → Disk → Prop}
    {C : Disk → Prop} {d : Disk} {leaf : Leaf} (stable : Stable A I)
    (haccepted : Accepted entry.path.toList)
    (hparent : ∀ t target, I t → t.target root.canonicalPath target = none →
      target <+: (targetPath entry.path).dropLast → I (t.withDirectory root.canonicalPath target))
    (hleaf : leaf = .prepared → ∀ t, I t → t.reserved root.canonicalPath jobId = none →
      I (t.setReserved root.canonicalPath jobId (some .empty)))
    (hE : ∀ e t, I t → E e t) (hC : ∀ t, I t → C t)
    (hcall : ∀ t, I t → (replaceFile splits root jobId leaf index entry.path).Meets A Q E C t)
    (hd : I d) : Wp A (replaceAtomic splits root jobId leaf index entry.path) Q E C d := by
  have hcalled : ∀ t, I t → Wp A (do
      openSource root jobId leaf index
      openTarget root entry.path
      (replaceFile splits root jobId leaf index entry.path).run) Q E C t := by
    intro t ht
    refine Wp.bind ((keeps_openSource leaf t ht).mono ?_ hE hC)
    intro _ t₁ ht₁
    refine Wp.bind ((keeps_openTarget entry.path t₁ ht₁).mono ?_ hE hC)
    exact fun _ t₂ ht₂ => Wp.step_stable ht₂ stable hcall
  refine Wp.bind ((keeps_lockedSource d hd).mono ?_ hE hC)
  intro _ t₁ ht₁
  refine Wp.bind ((keeps_lockedTarget stable haccepted hparent t₁ ht₁).mono ?_ hE hC)
  intro _ t₂ ht₂
  cases leaf with
  | backup => exact hcalled t₂ ht₂
  | prepared =>
    refine Wp.bind ((keeps_lockedBackup stable (hleaf rfl) t₂ ht₂).mono ?_ hE hC)
    intro _ t₃ ht₃
    refine Wp.bind (Wp.look ?_)
    split
    · exact Wp.bind (Wp.throw (hE _ _ ht₃))
    · exact hcalled t₃ ht₃

theorem wp_moveAtomic {Q : Unit → Disk → Prop} {E : MaintenanceError → Disk → Prop}
    {C : Disk → Prop} {d : Disk} {leaf : Leaf} (stable : Stable A I)
    (haccepted : Accepted entry.path.toList)
    (hparent : ∀ t target, I t → t.target root.canonicalPath target = none →
      target <+: (targetPath entry.path).dropLast → I (t.withDirectory root.canonicalPath target))
    (hE : ∀ e t, I t → E e t) (hC : ∀ t, I t → C t)
    (hcall : ∀ t, I t → (moveFile root jobId leaf index entry.path).Meets A Q E C t)
    (hd : I d) : Wp A (moveAtomic root jobId leaf index entry.path) Q E C d := by
  refine Wp.bind ((keeps_lockedSource d hd).mono ?_ hE hC)
  intro _ t₁ ht₁
  refine Wp.bind ((keeps_lockedTarget stable haccepted hparent t₁ ht₁).mono ?_ hE hC)
  intro _ t₂ ht₂
  refine Wp.bind ((keeps_openSource leaf t₂ ht₂).mono ?_ hE hC)
  intro _ t₃ ht₃
  refine Wp.bind ((keeps_openFreeTarget entry.path t₃ ht₃).mono ?_ hE hC)
  exact fun _ t₄ ht₄ => Wp.step_stable ht₄ stable hcall

end Keeping

/-! ### Applying and rolling back -/

theorem DirectPlatform.target_ok [Sha256] {self : DirectPlatform} {root : RegisteredRoot} {path : String}
    {d : Disk} (h : self.target root path d = .ok ()) :
    root = self.root ∧ self.inner.verifyRootIdentity root d = .ok () ∧
      pathAllowed path self.launcher = true := by
  unfold DirectPlatform.target DirectPlatform.bound at h
  by_cases hroot : root = self.root
  · simp only [hroot, ne_eq, not_true_eq_false, if_false, Result.pure_eq] at h
    obtain ⟨⟨⟩, hverified, h⟩ := Result.bind_eq_ok.mp h
    cases hallowed : pathAllowed path self.launcher with
    | true => exact ⟨hroot, hroot ▸ hverified, rfl⟩
    | false => simp [hallowed] at h
  · simp [hroot] at h

section Changes

variable {root : RegisteredRoot} {jobId : String} {entry : JournalEntry} {d t : Disk} {u : Unit}

theorem freeTarget_prepared (horiginal : entry.original.isSome)
    (h : (freeTarget root jobId .prepared entry.transactionIndex entry.path).effect d =
      .ok (u, t)) : ApplyChange root.canonicalPath jobId entry d t :=
  renameToBackup_change horiginal h

theorem takeTarget_prepared (hindex : entry.preparedIndex = some entry.transactionIndex)
    (h : (takeTarget root jobId .prepared entry.transactionIndex entry.path).effect d =
      .ok (u, t)) : ApplyChange root.canonicalPath jobId entry d t :=
  renamePrepared_change hindex h

theorem takeTarget_backup (horiginal : entry.original.isSome)
    (h : (takeTarget root jobId .backup entry.transactionIndex entry.path).effect d =
      .ok (u, t)) : RollbackChange root.canonicalPath jobId entry d t :=
  (renameBackup_change horiginal h).1

/-- A target makes room only for the backup that is about to take its name. -/
theorem freeTarget_backup {t' : Disk} {u' : Unit} (horiginal : entry.original.isSome)
    (h : (freeTarget root jobId .backup entry.transactionIndex entry.path).effect d = .ok (u, t))
    (h' : (takeTarget root jobId .backup entry.transactionIndex entry.path).effect t =
      .ok (u', t')) : t = d ∨ RollbackChange root.canonicalPath jobId entry d t := by
  have hbackup := (renameBackup_change horiginal h').2
  obtain ⟨-, rfl⟩ | ⟨file, hfile, rfl⟩ := removeTargetFile_ok h
  · exact .inl rfl
  · rw [Disk.backup_deleted] at hbackup
    exact .inr (.delete hfile (.inr hbackup))

end Changes

section Entries

variable [Sha256] {A : Event Intrusion → Prop} {I : Disk → Prop} {context : DirectContext}
  {prepared : PreparedJob} {entry : JournalEntry}

theorem keeps_atomicReplaceTarget (hindex : entry.preparedIndex = some entry.transactionIndex)
    (stable : Stable A I) (hclosed : AppliesWithin prepared entry I) :
    Keeps A I (context.toDirectPlatform.atomicReplaceTarget prepared.header.root
      prepared.header.jobId entry.transactionIndex entry.path entry.original) := by
  intro d hd
  refine Wp.bind (Wp.inspect (fun _ htarget => ?_) (fun _ _ => hd))
  have haccepted := pathAllowed_accepted (DirectPlatform.target_ok htarget).2.2
  refine Wp.bind (Wp.inspect (fun current _ => ?_) (fun _ _ => hd))
  by_cases hcurrent : current = entry.original
  · simp only [hcurrent, ne_eq, not_true_eq_false, if_false]
    cases horiginal : entry.original with
    | none =>
      simp only [Option.isSome_none, Bool.false_eq_true, if_false]
      refine Wp.bind (wp_moveAtomic stable haccepted
        (fun t _ ht hnone hp => hclosed t _ ht (.directory hnone hp)) (fun _ _ h => h)
        (fun _ h => h) (fun t ht => ?_) hd)
      refine Step.Meets.whole (Step.Whole.unless .plain) (fun _ t' heff => ?_) (fun _ => ht) ht
      have hnext := hclosed t t' ht (takeTarget_prepared hindex (Step.unless_ok heff).2)
      exact ⟨Wp.pure hnext, hnext⟩
    | some original =>
      simp only [Option.isSome_some, if_true]
      have hsome : entry.original.isSome := by simp [horiginal]
      refine Wp.bind (wp_replaceAtomic stable haccepted
        (fun t _ ht hnone hp => hclosed t _ ht (.directory hnone hp))
        (fun _ t ht hnone => hclosed t _ ht (.leaf hnone)) (fun _ _ h => h) (fun _ h => h)
        (fun t ht => Step.Meets.followedBy ht ht ?_) hd)
      intro _ t₁ _ t₂ hfree htake
      have hfirst := hclosed t t₁ ht (freeTarget_prepared hsome hfree)
      have hlast := hclosed t₁ t₂ hfirst (takeTarget_prepared hindex htake)
      exact ⟨Wp.pure hlast, hlast, fun _ => ⟨hfirst, hfirst⟩⟩
  · simp only [ne_eq, hcurrent, not_false_eq_true, if_true]
    exact Wp.bind (Wp.throw hd)

theorem keeps_atomicRestoreBackup (horiginal : entry.original.isSome) (stable : Stable A I)
    (hclosed : RollsBackWithin prepared entry I) :
    Keeps A I (context.toDirectPlatform.atomicRestoreBackup prepared.header.root
      prepared.header.jobId entry.transactionIndex entry.path) := by
  intro d hd
  refine Wp.bind (Wp.inspect (fun _ htarget => ?_) (fun _ _ => hd))
  have haccepted := pathAllowed_accepted (DirectPlatform.target_ok htarget).2.2
  refine Wp.bind (Wp.inspect (fun current _ => ?_) (fun _ _ => hd))
  cases current with
  | none =>
    simp only [Option.isSome_none, Bool.false_eq_true, if_false]
    refine Wp.bind (wp_moveAtomic stable haccepted
      (fun t _ ht hnone hp => hclosed t _ ht (.directory hnone hp)) (fun _ _ h => h)
      (fun _ h => h) (fun t ht => ?_) hd)
    refine Step.Meets.whole (Step.Whole.unless .plain) (fun _ t' heff => ?_) (fun _ => ht) ht
    have hnext := hclosed t t' ht (takeTarget_backup horiginal (Step.unless_ok heff).2)
    exact ⟨Wp.pure hnext, hnext⟩
  | some snapshot =>
    simp only [Option.isSome_some, if_true]
    refine Wp.bind (wp_replaceAtomic stable haccepted
      (fun t _ ht hnone hp => hclosed t _ ht (.directory hnone hp)) (fun h => by cases h)
      (fun _ _ h => h) (fun _ h => h) (fun t ht => Step.Meets.followedBy ht ht ?_) hd)
    intro _ t₁ _ t₂ hfree htake
    have hfirst : I t₁ := by
      obtain rfl | hchange := freeTarget_backup horiginal hfree htake
      · exact ht
      · exact hclosed t t₁ ht hchange
    have hlast := hclosed t₁ t₂ hfirst (takeTarget_backup horiginal htake)
    exact ⟨Wp.pure hlast, hlast, fun _ => ⟨hfirst, hfirst⟩⟩

theorem keeps_applyEntry (hpolicy : prepared.policy = context.policy)
    (haction : entry.action = .replace) (hindex : entry.preparedIndex = some entry.transactionIndex)
    (stable : Stable A I) (hclosed : AppliesWithin prepared entry I) :
    Keeps A I (applyEntry prepared entry) := by
  simp only [applyEntry, haction, hpolicy, DirectContext.policy, Bool.and_true, decide_true,
    if_true]
  refine keeps_runMutation stable _ _ _ ?_
  refine Keeps.bind (keeps_atomicReplaceTarget hindex stable hclosed) fun done => ?_
  cases done with
  | true => exact Keeps.pure ()
  | false => exact Keeps.throw _

theorem keeps_rollbackEntry (hpolicy : prepared.policy = context.policy) (stable : Stable A I)
    (hclosed : RollsBackWithin prepared entry I) : Keeps A I (rollbackEntry prepared entry) := by
  unfold rollbackEntry
  cases horiginal : entry.original with
  | none =>
    exact keeps_deleteExisting stable fun t file ht hfile =>
      hclosed t _ ht (.delete hfile (.inl horiginal))
  | some original =>
    refine Keeps.bind (keeps_inspect _) fun found => ?_
    cases found with
    | false => exact Keeps.pure ()
    | true =>
      simp only [restoreEntry, hpolicy, DirectContext.policy, if_true]
      refine keeps_runMutation stable _ _ _ ?_
      refine Keeps.bind (keeps_atomicRestoreBackup (by simp [horiginal]) stable hclosed)
        fun done => ?_
      cases done with
      | true => exact Keeps.pure ()
      | false => exact Keeps.throw _

end Entries

/-! ### Jobs -/

/-- A job of a direct update: it only replaces files, each from the place of its own number. -/
structure DirectContext.Owns [Sha256] (context : DirectContext) (prepared : PreparedJob) : Prop where
  policy : prepared.policy = context.policy
  replaces : ∀ entry ∈ prepared.header.entries, entry.action = .replace
  index : ∀ entry ∈ prepared.header.entries,
    entry.preparedIndex = some entry.transactionIndex

section Jobs

variable [Sha256] {A : Event Intrusion → Prop} {I : Disk → Prop} {context : DirectContext}
  {prepared : PreparedJob} {entries : List JournalEntry} {d₀ : Disk}

theorem keeps_applyEntries (howns : context.Owns prepared) (stable : Stable A I)
    (hsub : entries ⊆ prepared.header.entries)
    (hclosed : ∀ entry ∈ entries, AppliesWithin prepared entry I) :
    Keeps A I (applyEntries prepared entries) := by
  induction entries with
  | nil => exact Keeps.pure ()
  | cons entry rest ih =>
    obtain ⟨he, hrest⟩ := List.cons_subset.mp hsub
    rw [List.forall_mem_cons] at hclosed
    exact Keeps.bind (keeps_applyEntry howns.policy (howns.replaces entry he) (howns.index entry he)
      stable hclosed.1) fun _ => ih hrest hclosed.2

theorem keeps_rollbackReversed (hpolicy : prepared.policy = context.policy) (stable : Stable A I)
    (hclosed : ∀ entry ∈ entries, RollsBackWithin prepared entry I) :
    Keeps A I (rollbackReversed prepared entries) := by
  induction entries with
  | nil => exact Keeps.pure ()
  | cons entry rest ih =>
    rw [List.forall_mem_cons] at hclosed
    exact Keeps.bind (keeps_rollbackEntry hpolicy stable hclosed.1) fun _ => ih hclosed.2

theorem keeps_rollbackEntries (hpolicy : prepared.policy = context.policy) (stable : Stable A I)
    (hclosed : ∀ entry ∈ prepared.header.entries, RollsBackWithin prepared entry I) :
    Keeps A I (rollbackEntries prepared) :=
  Keeps.bind (keeps_inspect _) fun _ => keeps_rollbackReversed hpolicy stable fun entry he =>
    hclosed entry (List.mem_reverse.mp he)

theorem moves_applyEntries (howns : context.Owns prepared) (hsub : entries ⊆ prepared.header.entries) :
    Keeps Quiet (prepared.Moves entries d₀) (applyEntries prepared entries) :=
  keeps_applyEntries howns Stable.quiet hsub fun _ he _ _ ht h => ht.applyChange he h

theorem moves_rollbackReversed (hpolicy : prepared.policy = context.policy) :
    Keeps Quiet (prepared.Moves entries d₀) (rollbackReversed prepared entries) :=
  keeps_rollbackReversed hpolicy Stable.quiet fun _ he _ _ ht h => ht.rollbackChange he h

end Jobs

end Direct

end Se7en

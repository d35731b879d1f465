import Se7enService.TransactionFrame
set_option autoImplicit false

/-! What applying and rolling back single entries does to their targets and backups. -/

namespace Se7en
open Faulty

/-- What is found at an entry's target, in its backup and in its prepared file. -/
structure View where
  node : Option Node
  backup : Option File
  prepared : Option File

/-- A prepared job, with the files its entries replace and the files they install. -/
structure Plan where
  job : PreparedJob
  base : TargetPath → Option Node
  payload : UInt32 → Option File

namespace Plan

variable (plan : Plan)

def path : String := plan.job.header.root.canonicalPath
def jobId : String := plan.job.header.jobId
def entries : List JournalEntry := plan.job.header.entries

def view (entry : JournalEntry) (d : Disk) : View where
  node := d.target plan.path (targetPath entry.path)
  backup := d.backup plan.path plan.jobId entry.transactionIndex
  prepared := entry.preparedIndex >>= d.prepared plan.path plan.jobId

def old (entry : JournalEntry) : Option Node := plan.base (targetPath entry.path)

/-- The node that an entry leaves at its target. -/
def new (entry : JournalEntry) : Option Node := do
  let index ← entry.preparedIndex
  let file ← plan.payload index
  pure (.file { file with origin := .payload plan.jobId index })

/-- What `prepare_file_set` promises about the entries, and the paths being pairwise apart. -/
structure Sound : Prop where
  policy : plan.job.policy.usesAtomicReplacement = false
  nodup : plan.entries.Nodup
  apart : ∀ entry ∈ plan.entries, ∀ other ∈ plan.entries, other ≠ entry →
    ¬ targetPath other.path <+: targetPath entry.path ∧
      other.transactionIndex ≠ entry.transactionIndex ∧
      ∀ index, other.preparedIndex = some index → entry.preparedIndex ≠ some index
  original : ∀ entry ∈ plan.entries, match entry.original with
    | none => plan.old entry = none
    | some _ => ∃ file, plan.old entry = some (.file file)
  replaces : ∀ entry ∈ plan.entries, entry.action = .replace →
    ∃ index file, entry.preparedIndex = some index ∧ plan.payload index = some file
  removes : ∀ entry ∈ plan.entries, entry.action = .remove → entry.preparedIndex = none

/-- The entry has not been applied, or has been rolled back. -/
def Restored (entry : JournalEntry) (v : View) : Prop :=
  v.node = plan.old entry ∧ (entry.original.isSome → v.backup = none)

/-- The entry can be applied. -/
def Ready (entry : JournalEntry) (v : View) : Prop :=
  plan.Restored entry v ∧ v.prepared = entry.preparedIndex >>= plan.payload

/-- From here a rollback restores the target, whatever has been done for the entry. -/
def Undoable (entry : JournalEntry) (v : View) : Prop :=
  plan.Restored entry v ∨
    (entry.original = none ∧ (v.node = none ∨ v.node = plan.new entry)) ∨
    (entry.original.isSome ∧ v.backup.map Node.file = plan.old entry ∧
      v.backup.isSome ∧ (v.node = none ∨ v.node = plan.new entry))

def Applied (entry : JournalEntry) (v : View) : Prop :=
  v.node = plan.new entry ∧ plan.Undoable entry v

end Plan

section Views

variable {plan : Plan} {entry other : JournalEntry} {d d' : Disk}

theorem Plan.Restored.undoable {v : View} (h : plan.Restored entry v) : plan.Undoable entry v :=
  .inl h

/-- Moving the files of some entries leaves the other entries' views alone. -/
theorem Plan.Sound.view_other (hs : plan.Sound) {moved : List JournalEntry}
    (hsub : moved ⊆ plan.entries) (he : entry ∈ plan.entries) (hne : entry ∉ moved)
    (hm : plan.job.Moves moved d d') : plan.view entry d' = plan.view entry d := by
  have hapart : ∀ other ∈ moved, ¬ targetPath entry.path <+: targetPath other.path ∧
      other.transactionIndex ≠ entry.transactionIndex ∧
      ∀ index, entry.preparedIndex = some index → other.preparedIndex ≠ some index := by
    intro other ho
    have hdiff : other ≠ entry := fun h => hne (h ▸ ho)
    obtain ⟨hinitial, -, -⟩ := hs.apart other (hsub ho) entry he (Ne.symm hdiff)
    obtain ⟨-, hindex, hprepared⟩ := hs.apart entry he other (hsub ho) hdiff
    exact ⟨hinitial, hindex, fun index h h' => hprepared index h' h⟩
  have hnode : d'.target plan.path (targetPath entry.path) =
      d.target plan.path (targetPath entry.path) := by
    have htarget : ¬ Targeted moved (targetPath entry.path) := by
      rintro ⟨other, ho, heq⟩
      exact (hapart other ho).1 (heq ▸ List.prefix_refl _)
    obtain h | ⟨-, -, other, ho, hinitial⟩ := hm.target _ htarget
    · exact h
    · exact absurd hinitial (hapart other ho).1
  have hbackup := hm.backup entry.transactionIndex fun other ho => (hapart other ho).2.1
  have hprepared : (entry.preparedIndex >>= d'.prepared plan.path plan.jobId) =
      (entry.preparedIndex >>= d.prepared plan.path plan.jobId) := by
    cases hindex : entry.preparedIndex with
    | none => rfl
    | some index => exact hm.prepared index fun other ho => (hapart other ho).2.2 index hindex
  simp only [Plan.view, hnode, hprepared]
  congr 1

end Views

/-! ### What an inspection tells -/

theorem localInspectTarget_node {d : Disk} {root : RegisteredRoot} {path : String}
    {current : Option TargetSnapshot} (h : localInspectTarget d root path = .ok current) :
    match current with
    | none => d.target root.canonicalPath (targetPath path) = none
    | some snapshot => ∃ file, d.target root.canonicalPath (targetPath path) = some (.file file) ∧
        file.snapshot = snapshot ∧ file.links ≤ 1 := by
  unfold localInspectTarget at h
  cases hvalid : validateRelativePath path with
  | error e => simp [hvalid] at h
  | ok =>
    simp only [hvalid, Result.ok_bind] at h
    split at h
    · simp at h
    simp only [Result.pure_eq] at h
    split at h
    · rename_i hnode
      cases h
      exact hnode
    · rename_i file hnode
      by_cases hlinks : file.links > 1
      · simp [hlinks] at h
      · simp [hlinks] at h
        subst h
        exact ⟨file, hnode, rfl, Nat.not_lt.mp hlinks⟩
    · simp at h

theorem targetExists_node {d : Disk} {root : RegisteredRoot} {path : String} {found : Bool}
    (h : targetExists root path d = .ok found) :
    if found then ∃ file, d.target root.canonicalPath (targetPath path) = some (.file file)
    else d.target root.canonicalPath (targetPath path) = none := by
  unfold targetExists at h
  cases hinspect : localInspectTarget d root path with
  | error e => simp [hinspect] at h
  | ok current =>
    simp only [hinspect, Result.ok_bind, Result.pure_eq, Except.ok.injEq] at h
    have hnode := localInspectTarget_node hinspect
    subst h
    cases current with
    | none => simpa using hnode
    | some snapshot =>
      obtain ⟨file, hfile, -⟩ := hnode
      simpa using ⟨file, hfile⟩

/-! ### Moves and views -/

section Moves

variable {plan : Plan} {entry : JournalEntry} {d d' : Disk} {v : View}

@[simp] theorem Plan.view_logged (mutation : Mutation) :
    plan.view entry (d.logged mutation) = plan.view entry d := rfl

@[simp] theorem Plan.view_setNode (node : Option Node) :
    plan.view entry (d.setNode plan.path (targetPath entry.path) node) =
      { plan.view entry d with node } := by
  simp [Plan.view]

theorem Plan.view_setNode_of_ne {target : TargetPath} (h : targetPath entry.path ≠ target)
    (node : Option Node) : plan.view entry (d.setNode plan.path target node) = plan.view entry d := by
  simp [Plan.view, d.target_setNode_of_ne node h]

theorem Plan.view_setReserved (job : ReservedJob) :
    plan.view entry (d.setReserved plan.path plan.jobId (some job)) =
      { plan.view entry d with
        backup := job.backup entry.transactionIndex
        prepared := entry.preparedIndex >>= job.prepared } := by
  have hjob : (d.setReserved plan.path plan.jobId (some job)).reserved plan.path plan.jobId =
      some job := d.reserved_setReserved_self _
  simp [Plan.view, Disk.backup_of_reserved hjob, Disk.prepared_of_reserved hjob]

theorem renameToBackup_ok {u : Unit}
    (h : (renameToBackup plan.path plan.jobId entry.transactionIndex (targetPath entry.path)).effect
      d = .ok (u, d')) :
    ∃ file, (plan.view entry d).node = some (.file file) ∧
      plan.view entry d' = { plan.view entry d with node := none, backup := some file } := by
  simp only [renameToBackup] at h
  split at h
  · rename_i file job hfile hjob
    cases h
    refine ⟨file, hfile, ?_⟩
    rw [Plan.view_logged, Plan.view_setReserved, Plan.view_setNode]
    simp [Plan.view, Disk.prepared_of_reserved hjob]
  · cases h

theorem renamePrepared_ok {u : Unit} {index : UInt32} (hindex : entry.preparedIndex = some index)
    (h : (renamePrepared plan.path plan.jobId index (targetPath entry.path)).effect d = .ok (u, d')) :
    ∃ file, (plan.view entry d).prepared = some file ∧
      plan.view entry d' = { plan.view entry d with
        node := some (.file { file with origin := .payload plan.jobId index }), prepared := none } := by
  simp only [renamePrepared] at h
  split at h
  · cases h
  rename_i job hjob
  split at h
  · cases h
  rename_i file hfile
  split at h
  · cases h
  rename_i d'' hrename
  cases h
  have hd := renameOnto_eq hrename
  subst hd
  refine ⟨file, by simp [Plan.view, hindex, Disk.prepared, hjob, hfile], ?_⟩
  rw [Plan.view_logged, Plan.view_setReserved, Plan.view_setNode]
  simp [Plan.view, Disk.backup, hjob, hindex]

theorem renameBackup_ok {u : Unit}
    (h : (renameBackup plan.path plan.jobId entry.transactionIndex (targetPath entry.path)).effect
      d = .ok (u, d')) :
    ∃ file, (plan.view entry d).backup = some file ∧
      plan.view entry d' = { plan.view entry d with node := some (.file file), backup := none } := by
  simp only [renameBackup] at h
  split at h
  · cases h
  rename_i job hjob
  split at h
  · cases h
  rename_i file hfile
  split at h
  · cases h
  rename_i d'' hrename
  cases h
  have hd := renameOnto_eq hrename
  subst hd
  refine ⟨file, by simp [Plan.view, Disk.backup, hjob, hfile], ?_⟩
  rw [Plan.view_logged, Plan.view_setReserved, Plan.view_setNode]
  simp [Plan.view, Disk.prepared_of_reserved hjob]

/-- Creating the directories above a target does not touch the target. -/
theorem keeps_view_ensureTargetParent :
    Keeps Quiet (fun d => plan.view entry d = v)
      (ensureTargetParent plan.job.header.root entry.path) := by
  refine keeps_ensureTargetParent Stable.quiet fun t target ht _ hp => ?_
  have hne : targetPath entry.path ≠ target := by
    rintro rfl
    have hlength := hp.length_le
    rw [List.length_dropLast] at hlength
    have hpos := targetPath_length entry.path
    omega
  exact (Plan.view_setNode_of_ne hne _).trans ht

theorem keeps_view_ensureReservedLeafDirectory :
    Keeps Quiet (fun d => plan.view entry d = v)
      (ensureReservedLeafDirectory plan.job.header.root plan.jobId) := by
  refine keeps_ensureReservedLeafDirectory Stable.quiet fun d hd hjob => ?_
  refine (Plan.view_setReserved _).trans (Eq.trans ?_ hd)
  have hjob' : d.reserved plan.path plan.jobId = none := hjob
  cases hindex : entry.preparedIndex <;>
    simp [Plan.view, Disk.backup, Disk.prepared, hjob', hindex, ReservedJob.empty]

end Moves

/-! ### What the moves of one entry do to its view -/

/-- From a view in `pre`, the program ends in `post`, and whatever stops it leaves `inv`. -/
def Plan.Leads (plan : Plan) (entry : JournalEntry) (p : JobProg Unit)
    (pre post inv : View → Prop) : Prop :=
  ∀ d, pre (plan.view entry d) → Wp Quiet p (fun _ d' => post (plan.view entry d'))
    (fun _ d' => inv (plan.view entry d')) (fun d' => inv (plan.view entry d')) d

section Leads

variable {plan : Plan} {entry : JournalEntry} {p q : JobProg Unit}
  {pre mid post inv : View → Prop} {v : View}

theorem Plan.Leads.bind (hp : plan.Leads entry p pre mid inv)
    (hq : plan.Leads entry q mid post inv) :
    plan.Leads entry (p >>= fun _ => q) pre post inv :=
  fun d hd => Wp.bind ((hp d hd).mono (fun _ d' hm => hq d' hm) (fun _ _ h => h) (fun _ h => h))

theorem Plan.Leads.pure (h : ∀ v, pre v → post v) :
    plan.Leads entry (Pure.pure ()) pre post inv :=
  fun _ hd => Wp.pure (h _ hd)

theorem Plan.Leads.mono {pre' post' inv' : View → Prop} (h : plan.Leads entry p pre' post' inv')
    (hpre : ∀ v, pre v → pre' v) (hpost : ∀ v, post' v → post v) (hinv : ∀ v, inv' v → inv v) :
    plan.Leads entry p pre post inv :=
  fun d hd => (h d (hpre _ hd)).mono (fun _ _ => hpost _) (fun _ _ => hinv _) (fun _ => hinv _)

theorem Plan.Leads.mutation {kind : MutationKind} {path : Option String}
    (h : plan.Leads entry p pre post inv) (hpre : ∀ v, pre v → inv v)
    (hpost : ∀ v, post v → inv v) :
    plan.Leads entry (runMutation plan.job.policy kind path p) pre post inv := by
  intro d hd
  refine Wp.runMutation (fun _ => hpre _ hd) (hpre _ hd) ?_
  exact (h d hd).mono (fun _ _ hq => ⟨hq, fun _ => hpost _ hq, hpost _ hq⟩) (fun _ _ h => h)
    (fun _ h => h)

/-- The view is still the same, or the target is gone. -/
def Deleting (v w : View) : Prop := w = v ∨ w = { v with node := none }

theorem leads_localDeleteTarget :
    plan.Leads entry (localDeleteTarget plan.job.header.root plan.jobId entry.path) (· = v)
      (· = { v with node := none }) (Deleting v) := by
  intro d hd
  refine Wp.bind (Wp.inspect (fun current hcurrent => ?_) (fun _ _ => .inl hd))
  have hnode := localInspectTarget_node hcurrent
  cases current with
  | none =>
    refine Wp.pure ?_
    subst hd
    simp only [Plan.view]
    congr 1
  | some snapshot =>
    obtain ⟨file, hfile, -⟩ := hnode
    refine Wp.step_quiet (Step.Meets.whole .plain ?_ (fun _ => .inl hd) (.inl hd))
    intro _ d' he
    simp only [removeTargetFile, hfile] at he
    cases he
    have hview : plan.view entry ((d.setNode plan.path (targetPath entry.path) none).logged
        { jobId := plan.jobId, kind := .deleteTarget, path := targetPath entry.path, file }) =
        { v with node := none } := by
      rw [Plan.view_logged, Plan.view_setNode, hd]
    exact ⟨hview, .inr hview⟩

theorem leads_deleteExisting :
    plan.Leads entry (deleteExisting plan.job entry) (· = v) (· = { v with node := none })
      (Deleting v) := by
  intro d hd
  refine Wp.bind (Wp.inspect (fun found hfound => ?_) (fun _ _ => .inl hd))
  cases found with
  | false =>
    have hnode := targetExists_node hfound
    refine Wp.pure ?_
    subst hd
    simp only [Plan.view]
    congr 1
  | true =>
    exact Plan.Leads.mutation leads_localDeleteTarget (fun _ h => .inl h) (fun _ h => .inr h) d hd

theorem leads_localRestoreBackup :
    plan.Leads entry (localRestoreBackup plan.job.header.root plan.jobId entry.transactionIndex
        entry.path) (· = v)
      (fun w => ∃ file, v.backup = some file ∧
        w = { v with node := some (.file file), backup := none })
      (fun w => w = v ∨ ∃ file, v.backup = some file ∧
        w = { v with node := some (.file file), backup := none }) := by
  intro d hd
  refine Wp.bind (Wp.inspect (fun current _ => ?_) (fun _ _ => .inl hd))
  cases current with
  | some snapshot => exact Wp.throw (.inl hd)
  | none =>
    refine Wp.bind (Wp.look ?_)
    split
    · exact Wp.throw (.inl hd)
    rename_i file _
    by_cases hlinks : file.links > 1
    · simp only [hlinks, if_true]
      exact Wp.bind (Wp.throw (.inl hd))
    simp only [hlinks, if_false]
    refine Wp.bind ((keeps_view_ensureTargetParent d hd).mono (fun _ t ht => ?_)
      (fun _ _ h => .inl h) (fun _ h => .inl h))
    refine Wp.step_quiet (Step.Meets.whole .plain ?_ (fun _ => .inl ht) (.inl ht))
    intro _ d' he
    obtain ⟨restored, hbackup, hview⟩ := renameBackup_ok he
    rw [ht] at hbackup hview
    exact ⟨⟨restored, hbackup, hview⟩, .inr ⟨restored, hbackup, hview⟩⟩

end Leads

/-! ### Rolling back one entry -/

section Rollback

variable {plan : Plan} {entry : JournalEntry}

theorem leads_restoreEntry (hpolicy : plan.job.policy.usesAtomicReplacement = false)
    (horiginal : entry.original.isSome) {v : View} (hbackup : v.backup.isSome)
    (hold : v.backup.map Node.file = plan.old entry)
    (hnode : v.node = none ∨ v.node = plan.new entry) :
    plan.Leads entry (restoreEntry plan.job entry) (· = v) (plan.Restored entry)
      (plan.Undoable entry) := by
  have hundo : plan.Undoable entry v := .inr (.inr ⟨horiginal, hold, hbackup, hnode⟩)
  have hdeleted : plan.Undoable entry { v with node := none } :=
    .inr (.inr ⟨horiginal, hold, hbackup, .inl rfl⟩)
  have hrestored : ∀ file, v.backup = some file → plan.Restored entry
      { v with node := some (.file file), backup := none } := by
    intro file hfile
    refine ⟨?_, fun _ => rfl⟩
    rw [← hold, hfile]
    rfl
  simp only [restoreEntry, hpolicy, Bool.false_eq_true, if_false]
  have hdelete : plan.Leads entry (deleteExisting plan.job entry) (· = v)
      (· = { v with node := none }) (plan.Undoable entry) := by
    refine leads_deleteExisting.mono (fun _ h => h) (fun _ h => h) ?_
    rintro w (rfl | rfl)
    · exact hundo
    · exact hdeleted
  refine hdelete.bind ?_
  · refine Plan.Leads.mutation ?_ (fun w hw => hw ▸ hdeleted) (fun w hw => hw.undoable)
    refine leads_localRestoreBackup.mono (fun _ h => h) ?_ ?_
    · rintro w ⟨file, hfile, rfl⟩
      exact hrestored file hfile
    · rintro w (rfl | ⟨file, hfile, rfl⟩)
      · exact hdeleted
      · exact (hrestored file hfile).undoable

theorem leads_rollbackEntry (hs : plan.Sound) (he : entry ∈ plan.entries) :
    plan.Leads entry (rollbackEntry plan.job entry) (plan.Undoable entry) (plan.Restored entry)
      (plan.Undoable entry) := by
  intro d hd
  have hbase := hs.original entry he
  unfold rollbackEntry
  cases horiginal : entry.original with
  | none =>
    simp only [horiginal] at hbase ⊢
    have hnone : plan.Restored entry { plan.view entry d with node := none } :=
      ⟨hbase.symm, by simp [horiginal]⟩
    refine (leads_deleteExisting d rfl).mono (fun _ d' h => ?_) (fun _ d' h => ?_) (fun d' h => ?_)
    · rwa [h]
    · obtain h | h := h <;> rw [h]
      · exact hd
      · exact hnone.undoable
    · obtain h | h := h <;> rw [h]
      · exact hd
      · exact hnone.undoable
  | some original =>
    refine Wp.bind (Wp.inspect (fun found hfound => ?_) (fun _ _ => hd))
    have hbackup : (plan.view entry d).backup.isSome = found := localBackupExists_isSome hfound
    obtain hrestored | ⟨hnone, -⟩ | ⟨hsome, hold, hisSome, hnode⟩ := hd
    · have hfalse : found = false := by
        rw [← hbackup, hrestored.2 (by simp [horiginal])]
        rfl
      subst hfalse
      exact Wp.pure hrestored
    · simp [horiginal] at hnone
    · have htrue : found = true := by rw [← hbackup, hisSome]
      subst htrue
      exact leads_restoreEntry hs.policy hsome hisSome hold hnode d rfl

end Rollback

/-! ### Applying one entry -/

section Apply

variable {plan : Plan} {entry : JournalEntry}

/-- The target is free and the prepared file still waits. -/
def Plan.Free (plan : Plan) (entry : JournalEntry) (v : View) : Prop :=
  plan.Undoable entry v ∧ v.node = none ∧ v.prepared = entry.preparedIndex >>= plan.payload

theorem leads_backUpTarget (hs : plan.Sound) (he : entry ∈ plan.entries) :
    plan.Leads entry (backUpTarget plan.job entry) (plan.Ready entry) (plan.Free entry)
      (plan.Undoable entry) := by
  have hbase := hs.original entry he
  unfold backUpTarget
  cases horiginal : entry.original with
  | none =>
    simp only [horiginal] at hbase
    refine Plan.Leads.pure fun v hv => ⟨hv.1.undoable, ?_, hv.2⟩
    rw [hv.1.1, hbase]
  | some original =>
    refine Plan.Leads.mutation ?_ (fun v hv => hv.1.undoable) (fun v hv => hv.1)
    intro d hd
    have hundo := hd.1.undoable
    refine Wp.bind (Wp.inspect (fun current _ => ?_) (fun _ _ => hundo))
    by_cases hcurrent : current = some original
    · simp only [hcurrent, ne_eq, not_true_eq_false, if_false]
      refine Wp.bind ((keeps_view_ensureReservedLeafDirectory d rfl).mono (fun _ t ht => ?_)
        (fun _ t ht => ht ▸ hundo) (fun t ht => ht ▸ hundo))
      have hundo' : plan.Undoable entry (plan.view entry t) := ht ▸ hundo
      refine Wp.bind (Wp.look ?_)
      split
      · exact Wp.bind (Wp.throw hundo')
      refine Wp.step_quiet (Step.Meets.whole .plain ?_ (fun _ => hundo') hundo')
      intro _ d' heff
      obtain ⟨file, hfile, hview⟩ := renameToBackup_ok heff
      have hbacked : plan.Undoable entry (plan.view entry d') := by
        refine .inr (.inr ⟨by simp [horiginal], ?_, ?_, ?_⟩) <;> rw [hview]
        · rw [← hd.1.1, ← ht, hfile]
          rfl
        · rfl
        · exact .inl rfl
      refine ⟨⟨hbacked, ?_, ?_⟩, hbacked⟩ <;> rw [hview]
      rw [ht]
      exact hd.2
    · simp only [hcurrent, ne_eq, not_false_eq_true, if_true]
      exact Wp.bind (Wp.throw hundo)

theorem Plan.Free.applied (hs : plan.Sound) (he : entry ∈ plan.entries) {v w : View}
    (hv : plan.Free entry v) (hnode : w.node = plan.new entry) (hbackup : w.backup = v.backup) :
    plan.Applied entry w := by
  refine ⟨hnode, ?_⟩
  obtain ⟨⟨hold, -⟩ | ⟨hnone, -⟩ | ⟨hsome, hold, hisSome, -⟩, hfree, -⟩ := hv
  · have hbase := hs.original entry he
    cases horiginal : entry.original with
    | none => exact .inr (.inl ⟨horiginal, .inr hnode⟩)
    | some original =>
      simp only [horiginal] at hbase
      obtain ⟨file, hfile⟩ := hbase
      rw [hfree, hfile] at hold
      cases hold
  · exact .inr (.inl ⟨hnone, .inr hnode⟩)
  · exact .inr (.inr ⟨hsome, hbackup ▸ hold, hbackup ▸ hisSome, .inr hnode⟩)

theorem leads_installPrepared (hs : plan.Sound) (he : entry ∈ plan.entries) :
    plan.Leads entry (installPrepared plan.job entry) (plan.Free entry) (plan.Applied entry)
      (plan.Undoable entry) := by
  unfold installPrepared
  cases haction : entry.action with
  | remove =>
    refine Plan.Leads.pure fun v hv => hv.applied hs he ?_ rfl
    simp [Plan.new, hs.removes entry he haction, hv.2.1]
  | replace =>
    obtain ⟨index, payload, hindex, hpayload⟩ := hs.replaces entry he haction
    simp only [hindex, if_true]
    refine Plan.Leads.mutation ?_ (fun v hv => hv.1) (fun v hv => hv.2)
    intro d hd
    refine Wp.bind (Wp.inspect (fun current _ => ?_) (fun _ _ => hd.1))
    cases current with
    | some snapshot => exact Wp.throw hd.1
    | none =>
      refine Wp.bind (Wp.look ?_)
      split
      · exact Wp.throw hd.1
      rename_i file _
      by_cases hlinks : file.links > 1
      · simp only [hlinks, if_true]
        exact Wp.bind (Wp.throw hd.1)
      simp only [hlinks, if_false]
      refine Wp.bind ((keeps_view_ensureTargetParent d rfl).mono (fun _ t ht => ?_)
        (fun _ t ht => ht ▸ hd.1) (fun t ht => ht ▸ hd.1))
      have hfree : plan.Free entry (plan.view entry t) := ht ▸ hd
      refine Wp.step_quiet (Step.Meets.whole .plain ?_ (fun _ => hfree.1) hfree.1)
      intro _ d' heff
      obtain ⟨installed, hinstalled, hview⟩ := renamePrepared_ok hindex heff
      have happlied : plan.Applied entry (plan.view entry d') := by
        refine hfree.applied hs he ?_ ?_ <;> rw [hview]
        have hfile : plan.payload index = some installed := by
          rw [← hinstalled, hfree.2.2, hindex]
          rfl
        simp [Plan.new, hindex, hfile]
      exact ⟨happlied, happlied.2⟩

theorem leads_applyEntry (hs : plan.Sound) (he : entry ∈ plan.entries) :
    plan.Leads entry (applyEntry plan.job entry) (plan.Ready entry) (plan.Applied entry)
      (plan.Undoable entry) := by
  simp only [applyEntry, hs.policy, Bool.and_false, Bool.false_eq_true, if_false]
  exact Plan.Leads.bind (leads_backUpTarget hs he) (leads_installPrepared hs he)

end Apply

end Se7en

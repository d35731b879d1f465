import Se7enService.EntryUndo
import Se7enService.RecoveryFrame
set_option autoImplicit false

/-! What `prepare_file_set` promises when it succeeds. -/

namespace Se7en
open Faulty

/-! ### The entries of a manifest -/

/-- The snapshot that an inspection returns. -/
def originalOf (d : Disk) (root : RegisteredRoot) (path : String) : Option TargetSnapshot :=
  match localInspectTarget d root path with
  | .ok original => original
  | .error _ => none

def fileEntryOf (d : Disk) (root : RegisteredRoot) (file : FileEntry × Nat) : JournalEntry where
  action := .replace
  original := originalOf d root file.1.path
  path := file.1.path
  preparedIndex := some (UInt32.ofNat file.2)
  transactionIndex := UInt32.ofNat file.2

def removalEntryOf (d : Disk) (root : RegisteredRoot) (offset : Nat) (removal : String × Nat) :
    JournalEntry where
  action := .remove
  original := originalOf d root removal.1
  path := removal.1
  preparedIndex := none
  transactionIndex := UInt32.ofNat (offset + removal.2)

def entriesOf (d : Disk) (root : RegisteredRoot) (fileSet : FileSet) : List JournalEntry :=
  fileSet.files.zipIdx.map (fileEntryOf d root) ++
    fileSet.removeFiles.zipIdx.map (removalEntryOf d root fileSet.files.length)

/-- The content is the one that the manifest signs. -/
def Matches [Sha256] (file : FileEntry) (content : Bytes) : Prop :=
  content.length = file.size.toNat ∧
    decodeLowerHex 32 file.sha256 .fileSetHash = .ok (Sha256.digest content)

section Prepare

variable [Unicode] [Sha256]

def headerOf (d : Disk) (root : RegisteredRoot) (manifest : VerifiedFileSet) : JournalHeader where
  entries := entriesOf d root manifest.fileSet
  generation := manifest.fileSet.generation
  jobId := jobIdOf root manifest
  manifestDigest := encodeHex manifest.digest.toList
  root := root
  schema := journalSchema

/-- A job that is ready to be committed. -/
structure PreparedFrom (manifest : VerifiedFileSet) (root : RegisteredRoot) (policy : Policy)
    (d : Disk) (job : PreparedJob) (t : Disk) : Prop where
  job : job = { header := headerOf d root manifest, policy }
  inspected : ∀ entry ∈ entriesOf d root manifest.fileSet,
    localInspectTarget d root entry.path = .ok entry.original
  verified : localVerifyRootIdentity d root = .ok ()
  journal : t.journal (jobIdOf root manifest) = some (newJournal (headerOf d root manifest))
  recorded : t.history.recorded (jobIdOf root manifest) = [.prepared]
  backup : ∀ index, t.backup root.canonicalPath (jobIdOf root manifest) index = none
  prepared : ∀ file ∈ manifest.fileSet.files.zipIdx, ∃ content : File,
    t.prepared root.canonicalPath (jobIdOf root manifest) (UInt32.ofNat file.2) = some content ∧
      Matches file.1 content.content
  frame : Frame root.canonicalPath (jobIdOf root manifest) [] d t

/-! ### Frames -/

variable {path jobId : String} {d₀ d d' : Disk}

omit [Unicode] [Sha256] in
theorem keeps_frame_private {st : JobStep} (hdone : ∀ d, Private jobId d (st.done d))
    (htorn : ∀ n d, Private jobId d (st.torn n d))
    (hfailed : ∀ c d, Private jobId d (st.failed c d)) :
    Keeps Quiet (Frame path jobId [] d₀) (st.run : JobProg Unit) :=
  Keeps.step_quiet (fun d hd => hd.trans (hdone d).frame) (fun n d hd => hd.trans (htorn n d).frame)
    (fun c d hd => hd.trans (hfailed c d).frame)

omit [Unicode] [Sha256] in
theorem keeps_createJobs : Keeps Quiet (Frame path jobId [] d₀) (createJobs.run : JobProg Unit) := by
  refine keeps_frame_private (fun d => ?_) (fun _ _ => Private.refl) (fun _ _ => Private.refl)
  refine ⟨rfl, fun name _ => ?_, fun _ _ => rfl, fun _ _ => rfl⟩
  cases h : d.jobs <;> simp [Step.done, createJobs, Disk.hasJob, h]

omit [Unicode] [Sha256] in
theorem private_createJob (fault : MaintenanceError) (d : Disk) :
    Private jobId d ((createJob jobId fault).done d) := by
  unfold Step.done
  simp only [createJob]
  cases hjobs : d.jobs with
  | none => exact Private.refl
  | some names =>
    by_cases hmem : names.contains jobId
    · simp only [hmem, if_true]
      exact Private.refl
    · simp only [hmem]
      refine ⟨rfl, fun name hname => ?_, fun name hname => update_of_ne hname, fun _ _ => rfl⟩
      simp [Disk.hasJob, Disk.setEntry, hjobs, hname]

omit [Unicode] [Sha256] in
theorem keeps_storePayload (index : Nat) (content : Bytes) :
    Keeps Quiet (Frame path jobId [] d₀) ((storePayload jobId index content).run : JobProg Unit) := by
  refine keeps_frame_private (fun d => ?_) (fun n d => ?_) (fun _ _ => Private.refl)
  · unfold Step.done
    simp only [storePayload]
    cases d.directory jobId with
    | none => exact Private.refl
    | some directory => exact private_setEntry d jobId _
  · simp only [storePayload]
    cases d.directory jobId with
    | none => exact Private.refl
    | some directory => exact private_setEntry d jobId _

omit [Unicode] [Sha256] in
theorem private_writePart (medium : Medium) (header : JournalHeader) (n : Nat) (d : Disk) :
    Private jobId d (writeNewJournal.writePart medium jobId header n d) := by
  unfold writeNewJournal.writePart
  cases d.directory jobId with
  | none => exact Private.refl
  | some directory =>
    dsimp only
    split
    · exact Private.refl
    split
    · exact (private_setEntry d jobId _).trans (private_record _ jobId _)
    · exact { private_setEntry d jobId { directory with
        journal := some ((newJournal header).take n) } with }

omit [Unicode] [Sha256] in
theorem keeps_writeNewJournal (medium : Medium) (header : JournalHeader) :
    Keeps Quiet (Frame path jobId [] d₀)
      ((writeNewJournal medium jobId header).run : JobProg Unit) := by
  refine keeps_frame_private (fun d => ?_) (fun n d => private_writePart medium header n d)
    (fun c d => ?_)
  · unfold Step.done
    simp only [writeNewJournal]
    cases d.directory jobId with
    | none => exact Private.refl
    | some directory =>
      cases hjournal : directory.journal with
      | some old =>
        simp only [hjournal]
        exact Private.refl
      | none =>
        simp only [hjournal]
        exact (private_setEntry d jobId _).trans (private_record _ jobId _)
  · cases c with
    | before => exact Private.refl
    | within n => exact private_writePart medium header n d
    | after => exact Private.refl

omit [Unicode] [Sha256] in
theorem keeps_storePrepared (index : UInt32) (file : File) :
    Keeps Quiet (Frame path jobId [] d₀)
      ((storePrepared path jobId index file).run : JobProg Unit) := by
  refine Keeps.step_quiet (fun d hd => ?_) (fun n d hd => ?_) (fun c d hd => hd)
  · unfold Step.done
    simp only [storePrepared]
    cases d.reserved path jobId with
    | none => exact hd
    | some job =>
      dsimp only
      split <;> rename_i heq <;> split at heq
      · cases heq
      · cases heq
        exact hd.setReserved _
      · exact hd
      · cases heq
  · simp only [storePrepared]
    cases d.reserved path jobId with
    | none => exact hd
    | some job =>
      dsimp only
      split
      · exact hd
      · exact hd.setReserved _

omit [Unicode] in
theorem keeps_copyPayloads (staging : Staging) (files : List (FileEntry × Nat)) :
    Keeps Quiet (Frame path jobId [] d₀) (copyPayloads jobId staging files) := by
  induction files with
  | nil => exact Keeps.pure ()
  | cons file files ih =>
    refine Keeps.bind (Keeps.lift _) fun source => ?_
    exact Keeps.bind (keeps_storePayload _ _) fun _ => Keeps.bind (Keeps.lift _) fun _ => ih

omit [Unicode] [Sha256] in
theorem keeps_inspectFiles {A : Event Intrusion → Prop} {I : Disk → Prop} (root : RegisteredRoot)
    (files : List (FileEntry × Nat)) : Keeps A I (inspectFiles root files) := by
  induction files with
  | nil => exact Keeps.pure _
  | cons file files ih =>
    exact Keeps.bind (keeps_inspect _) fun _ => Keeps.bind ih fun _ => Keeps.pure _

omit [Unicode] [Sha256] in
theorem keeps_inspectRemovals {A : Event Intrusion → Prop} {I : Disk → Prop}
    (root : RegisteredRoot) (offset : Nat) (paths : List (String × Nat)) :
    Keeps A I (inspectRemovals root offset paths) := by
  induction paths with
  | nil => exact Keeps.pure _
  | cons path paths ih =>
    exact Keeps.bind (keeps_inspect _) fun _ => Keeps.bind ih fun _ => Keeps.pure _

omit [Unicode] [Sha256] in
theorem keeps_frame_ensureReservedLeafDirectory (root : RegisteredRoot) :
    Keeps Quiet (Frame root.canonicalPath jobId [] d₀) (ensureReservedLeafDirectory root jobId) :=
  keeps_frame_of_moved fun _ =>
    keeps_ensureReservedLeafDirectory Stable.quiet fun _ ht hnone => ht.leaf hnone

omit [Unicode] in
theorem keeps_prepareTargets (stamp : Stamp) (root : RegisteredRoot)
    (files : List (FileEntry × Nat)) :
    Keeps Quiet (Frame root.canonicalPath jobId [] d₀) (prepareTargets stamp root jobId files) := by
  induction files with
  | nil => exact Keeps.pure ()
  | cons file files ih =>
    refine Keeps.bind (keeps_frame_ensureReservedLeafDirectory root) fun _ => ?_
    refine Keeps.bind (Keeps.look _) fun payload => ?_
    cases payload with
    | none => exact Keeps.throw_bind _ _
    | some payload =>
      refine Keeps.bind (keeps_storePrepared _ _) fun _ => ?_
      exact Keeps.bind (Keeps.lift _) fun _ => ih

theorem keeps_prepareJobContents (manifest : VerifiedFileSet) (root : RegisteredRoot)
    (staging : Staging) (stamp : Stamp) (policy : Policy) :
    Keeps Quiet (Frame root.canonicalPath jobId [] d₀)
      (prepareJobContents manifest root staging stamp policy jobId) := by
  refine Keeps.bind (keeps_copyPayloads _ _) fun _ => ?_
  refine Keeps.bind (keeps_inspectFiles _ _) fun files => ?_
  refine Keeps.bind (keeps_inspectRemovals _ _ _) fun removals => ?_
  refine Keeps.bind (keeps_writeNewJournal _ _) fun _ => ?_
  exact Keeps.bind (keeps_prepareTargets _ _ _) fun _ => Keeps.pure _

theorem keeps_prepareFileSet (manifest : VerifiedFileSet) (root : RegisteredRoot) (absolute : Bool)
    (staging : Staging) (stamp : Stamp) (policy : Policy) :
    Keeps Quiet (Frame root.canonicalPath (jobIdOf root manifest) [] d₀)
      (prepareFileSet manifest root absolute staging stamp policy) := by
  refine Keeps.bind (keeps_inspect _) fun _ => ?_
  by_cases hproduct : manifest.fileSet.productId = root.productId
  · simp only [hproduct, ne_eq, not_true_eq_false, if_false]
    cases absolute with
    | false => exact Keeps.throw_bind _ _
    | true =>
      simp only [Bool.not_true, Bool.false_eq_true, if_false]
      cases declaredSize manifest.fileSet.files 0 with
      | none => exact Keeps.throw _
      | some required =>
        refine Keeps.bind (Keeps.lift _) fun _ => Keeps.bind keeps_createJobs fun _ => ?_
        refine Keeps.bind (keeps_frame_private (private_createJob _) (fun _ _ => Private.refl)
          (fun _ _ => Private.refl)) fun _ => ?_
        refine Keeps.bind (Keeps.step_quiet (fun _ h => h) (fun _ _ h => h) fun _ _ h => h) fun _ => ?_
        refine Keeps.bind (Keeps.attempt (keeps_prepareJobContents _ _ _ _ _)) fun outcome => ?_
        cases outcome with
        | ok header => exact Keeps.pure _
        | error e =>
          exact Keeps.bind (Keeps.attempt frame_localCleanupJob) fun _ => Keeps.throw _
  · simp only [hproduct, ne_eq, not_false_eq_true, if_true]
    exact Keeps.throw_bind _ _

/-! ### Contents -/

/-- The private directory is there and has no journal yet. -/
def Blank (jobId : String) (d : Disk) : Prop :=
  ∃ directory, d.directory jobId = some directory ∧ directory.journal = none

omit [Unicode] [Sha256] in
theorem blank_setEntry {directory : JobDirectory} (h : d.directory jobId = some directory)
    {directory' : JobDirectory} (hjournal : directory'.journal = none) :
    Blank jobId (d.setEntry jobId directory') :=
  ⟨directory', Disk.directory_setEntry _ (Disk.hasJob_of_directory h), hjournal⟩

omit [Unicode] in
theorem keeps_blank_copyPayloads (staging : Staging) (files : List (FileEntry × Nat)) :
    Keeps Quiet (fun t => Blank jobId t ∧ t.root = d.root ∧ t.history = d.history)
      (copyPayloads jobId staging files) := by
  induction files with
  | nil => exact Keeps.pure ()
  | cons file files ih =>
    refine Keeps.bind (Keeps.lift _) fun source => ?_
    refine Keeps.bind ?_ fun _ => Keeps.bind (Keeps.lift _) fun _ => ih
    refine Keeps.step_quiet (fun t ht => ?_) (fun n t ht => ?_) (fun c t ht => ht)
    · obtain ⟨⟨directory, hdirectory, hjournal⟩, hroot, hhistory⟩ := ht
      simp only [Step.done, storePayload, hdirectory]
      exact ⟨blank_setEntry hdirectory hjournal, hroot, hhistory⟩
    · obtain ⟨⟨directory, hdirectory, hjournal⟩, hroot, hhistory⟩ := ht
      simp only [storePayload, hdirectory]
      exact ⟨blank_setEntry hdirectory hjournal, hroot, hhistory⟩

omit [Unicode] [Sha256] in
theorem originalOf_eq {root : RegisteredRoot} {path : String} {original : Option TargetSnapshot}
    (h : localInspectTarget d root path = .ok original) : originalOf d root path = original := by
  simp [originalOf, h]

omit [Unicode] [Sha256] in
theorem wp_inspectFiles {A : Event Intrusion → Prop} (root : RegisteredRoot)
    (files : List (FileEntry × Nat)) :
    Wp A (inspectFiles root files)
      (fun entries t => t = d ∧ entries = files.map (fileEntryOf d root) ∧
        ∀ entry ∈ entries, localInspectTarget d root entry.path = .ok entry.original)
      (fun _ _ => True) (fun _ => True) d := by
  induction files with
  | nil => exact Wp.pure ⟨rfl, rfl, by simp⟩
  | cons file files ih =>
    refine Wp.bind (Wp.inspect (fun original horiginal => ?_) (fun _ _ => trivial))
    refine Wp.bind (ih.mono ?_ (fun _ _ h => h) (fun _ h => h))
    rintro rest _ ⟨rfl, rfl, hrest⟩
    refine Wp.pure ⟨rfl, ?_, ?_⟩
    · simp [fileEntryOf, originalOf_eq horiginal]
    · rw [List.forall_mem_cons]
      exact ⟨horiginal, hrest⟩

omit [Unicode] [Sha256] in
theorem wp_inspectRemovals {A : Event Intrusion → Prop} (root : RegisteredRoot) (offset : Nat)
    (paths : List (String × Nat)) :
    Wp A (inspectRemovals root offset paths)
      (fun entries t => t = d ∧ entries = paths.map (removalEntryOf d root offset) ∧
        ∀ entry ∈ entries, localInspectTarget d root entry.path = .ok entry.original)
      (fun _ _ => True) (fun _ => True) d := by
  induction paths with
  | nil => exact Wp.pure ⟨rfl, rfl, by simp⟩
  | cons path paths ih =>
    refine Wp.bind (Wp.inspect (fun original horiginal => ?_) (fun _ _ => trivial))
    refine Wp.bind (ih.mono ?_ (fun _ _ h => h) (fun _ h => h))
    rintro rest _ ⟨rfl, rfl, hrest⟩
    refine Wp.pure ⟨rfl, ?_, ?_⟩
    · simp [removalEntryOf, originalOf_eq horiginal]
    · rw [List.forall_mem_cons]
      exact ⟨horiginal, hrest⟩

omit [Unicode] in
/-- The check accepts exactly the signed content. -/
theorem checkPayload_eq_ok {written : Bytes} {file : FileEntry} {mismatch : MaintenanceError} :
    checkPayload written file mismatch = .ok () ↔ Matches file written := by
  unfold checkPayload Matches
  by_cases hsize : written.length = file.size.toNat
  · cases hhash : decodeLowerHex 32 file.sha256 .fileSetHash with
    | error e => simp [hsize]
    | ok signed =>
      by_cases hsame : Sha256.digest written = signed
      · simp [hsize, hsame]
      · simp [hsize, hsame, Ne.symm hsame]
  · simp [hsize]

omit [Unicode] in
theorem copyReaderVerified_matches {source : List Bytes} {file : FileEntry} {written : Bytes}
    (h : copyReaderVerified source file = (written, .ok ())) : Matches file written := by
  unfold copyReaderVerified at h
  rcases hread : readVerified file source [] with ⟨written', outcome⟩
  simp only [hread, Prod.mk.injEq] at h
  obtain ⟨rfl, h⟩ := h
  cases outcome with
  | error e => simp at h
  | ok => exact checkPayload_eq_ok.mp h

/-- The reserved directory holds no backup, and what has been stored in it stays. -/
structure Stored (path jobId : String) (d t : Disk) : Prop where
  jobs : t.jobs = d.jobs
  entry : t.entry = d.entry
  history : t.history = d.history
  backup : ∀ index, t.backup path jobId index = none
  prepared : ∀ index file, d.prepared path jobId index = some file →
    t.prepared path jobId index = some file

omit [Unicode] [Sha256] in
theorem Stored.refl (h : ∀ index, d.backup path jobId index = none) : Stored path jobId d d :=
  ⟨rfl, rfl, rfl, h, fun _ _ h => h⟩

omit [Unicode] [Sha256] in
theorem Stored.trans (h : Stored path jobId d₀ d) (h' : Stored path jobId d d') :
    Stored path jobId d₀ d' :=
  ⟨h'.jobs.trans h.jobs, h'.entry.trans h.entry, h'.history.trans h.history, h'.backup,
    fun index file hfile => h'.prepared index file (h.prepared index file hfile)⟩

omit [Unicode] [Sha256] in
theorem wp_ensureReservedLeafDirectory (root : RegisteredRoot)
    (h : ∀ index, d.backup root.canonicalPath jobId index = none) :
    Wp Quiet (ensureReservedLeafDirectory root jobId) (fun _ => Stored root.canonicalPath jobId d)
      (fun _ _ => True) (fun _ => True) d := by
  have hself : Stored root.canonicalPath jobId d d := Stored.refl h
  unfold ensureReservedLeafDirectory
  split
  · exact Wp.throw trivial
  apply Wp.step_quiet
  constructor
  · intro _ d' he
    cases he
    cases hjob : d.reserved root.canonicalPath jobId with
    | some job => exact hself
    | none =>
      have hset : (d.setReserved root.canonicalPath jobId (some .empty)).reserved
          root.canonicalPath jobId = some .empty := d.reserved_setReserved_self _
      refine ⟨rfl, rfl, rfl, fun index => ?_, fun index file hfile => ?_⟩
      · rw [Disk.backup_of_reserved hset]
        rfl
      · simp [Disk.prepared, hjob] at hfile
  all_goals simp

omit [Unicode] [Sha256] in
theorem wp_storePrepared {index : UInt32} {file : File}
    (h : ∀ index, d.backup path jobId index = none) :
    Wp Quiet ((storePrepared path jobId index file).run : JobProg Unit)
      (fun _ t => Stored path jobId d t ∧ t.prepared path jobId index = some file)
      (fun _ _ => True) (fun _ => True) d := by
  apply Wp.step_quiet
  constructor
  · intro _ d' he
    simp only [storePrepared] at he
    cases hjob : d.reserved path jobId with
    | none => simp [hjob] at he
    | some job =>
      cases hindex : job.prepared index with
      | some old => simp [hjob, hindex] at he
      | none =>
        simp only [hjob, hindex, Except.ok.injEq, Prod.mk.injEq, true_and] at he
        subst he
        have hset := @Disk.reserved_setReserved_self d path jobId
          (some { job with prepared := update job.prepared index (some file) })
        refine ⟨⟨rfl, rfl, rfl, fun i => ?_, fun i old hold => ?_⟩, ?_⟩
        · have hnone := h i
          rw [Disk.backup_of_reserved hjob] at hnone
          rw [Disk.backup_of_reserved hset]
          exact hnone
        · rw [Disk.prepared_of_reserved hjob] at hold
          have hne : i ≠ index := by
            rintro rfl
            rw [hindex] at hold
            cases hold
          rw [Disk.prepared_of_reserved hset]
          simpa [update_of_ne hne] using hold
        · rw [Disk.prepared_of_reserved hset]
          simp
  all_goals simp

omit [Unicode] in
theorem wp_prepareTargets (stamp : Stamp) (root : RegisteredRoot) (files : List (FileEntry × Nat))
    (h : ∀ index, d.backup root.canonicalPath jobId index = none) :
    Wp Quiet (prepareTargets stamp root jobId files)
      (fun _ t => Stored root.canonicalPath jobId d t ∧ ∀ file ∈ files, ∃ content : File,
        t.prepared root.canonicalPath jobId (UInt32.ofNat file.2) = some content ∧
          Matches file.1 content.content)
      (fun _ _ => True) (fun _ => True) d := by
  induction files generalizing d with
  | nil => exact Wp.pure ⟨Stored.refl h, by simp⟩
  | cons file files ih =>
    obtain ⟨entry, index⟩ := file
    refine Wp.bind ((wp_ensureReservedLeafDirectory root h).mono ?_ (fun _ _ h => h) (fun _ h => h))
    intro _ t₁ hstored₁
    refine Wp.bind (Wp.look ?_)
    split
    · exact Wp.bind (Wp.throw trivial)
    rename_i payload _
    rcases hcopy : copyReaderVerified [payload] entry with ⟨written, verdict⟩
    dsimp only
    refine Wp.bind ((wp_storePrepared hstored₁.backup).mono ?_ (fun _ _ h => h) (fun _ h => h))
    intro _ t₂ ⟨hstored₂, hprepared⟩
    refine Wp.bind (Wp.lift (fun _ hverdict => ?_) (fun _ _ => trivial))
    subst hverdict
    refine (ih hstored₂.backup).mono ?_ (fun _ _ h => h) (fun _ h => h)
    intro _ t₃ ⟨hstored₃, hrest⟩
    refine ⟨(hstored₁.trans hstored₂).trans hstored₃, ?_⟩
    rw [List.forall_mem_cons]
    exact ⟨⟨_, hstored₃.prepared _ _ hprepared, copyReaderVerified_matches hcopy⟩, hrest⟩

omit [Unicode] [Sha256] in
theorem localInspectTarget_root (h : d'.root = d.root) (root : RegisteredRoot) (path : String) :
    localInspectTarget d' root path = localInspectTarget d root path := by
  simp [localInspectTarget, Disk.target, h]

omit [Sha256] in
theorem headerOf_root (h : d'.root = d.root) (root : RegisteredRoot) (manifest : VerifiedFileSet) :
    headerOf d' root manifest = headerOf d root manifest := by
  have horiginal : ∀ path, originalOf d' root path = originalOf d root path := by
    intro path
    simp [originalOf, localInspectTarget_root h]
  have hfile : fileEntryOf d' root = fileEntryOf d root := by
    funext file
    simp [fileEntryOf, horiginal]
  have hremoval : removalEntryOf d' root = removalEntryOf d root := by
    funext offset removal
    simp [removalEntryOf, horiginal]
  simp [headerOf, entriesOf, hfile, hremoval]

omit [Sha256] [Unicode] in
theorem wp_writeNewJournal (medium : Medium) (header : JournalHeader) (h : Blank jobId d) :
    Wp Quiet ((writeNewJournal medium jobId header).run : JobProg Unit)
      (fun _ t => t.journal jobId = some (newJournal header) ∧
        t.history.recorded jobId = [.prepared] ∧ t.root = d.root)
      (fun _ _ => True) (fun _ => True) d := by
  obtain ⟨directory, hdirectory, hjournal⟩ := h
  apply Wp.step_quiet
  constructor
  · intro _ d' he
    simp only [writeNewJournal, hdirectory, hjournal, Except.ok.injEq, Prod.mk.injEq,
      true_and] at he
    subst he
    refine ⟨?_, by simp [Disk.record], rfl⟩
    exact Disk.journal_setEntry { directory with journal := some (newJournal header) }
      (Disk.hasJob_of_directory hdirectory)
  all_goals simp

theorem wp_prepareJobContents (manifest : VerifiedFileSet) (root : RegisteredRoot)
    (staging : Staging) (stamp : Stamp) (policy : Policy) (hblank : Blank (jobIdOf root manifest) d)
    (hbackup : ∀ index, d.backup root.canonicalPath (jobIdOf root manifest) index = none) :
    Wp Quiet (prepareJobContents manifest root staging stamp policy (jobIdOf root manifest))
      (fun header t => header = headerOf d root manifest ∧
        (∀ entry ∈ entriesOf d root manifest.fileSet,
          localInspectTarget d root entry.path = .ok entry.original) ∧
        t.journal (jobIdOf root manifest) = some (newJournal (headerOf d root manifest)) ∧
        t.history.recorded (jobIdOf root manifest) = [.prepared] ∧
        (∀ index, t.backup root.canonicalPath (jobIdOf root manifest) index = none) ∧
        ∀ file ∈ manifest.fileSet.files.zipIdx, ∃ content : File,
          t.prepared root.canonicalPath (jobIdOf root manifest) (UInt32.ofNat file.2) = some content ∧
            Matches file.1 content.content)
      (fun _ _ => True) (fun _ => True) d := by
  refine Wp.bind ((keeps_blank_copyPayloads staging _ d ⟨hblank, rfl, rfl⟩).mono ?_
    (fun _ _ _ => trivial) (fun _ _ => trivial))
  rintro _ t ⟨hblank', hroot, -⟩
  refine Wp.bind ((wp_inspectFiles root _).mono ?_ (fun _ _ h => h) (fun _ h => h))
  rintro files _ ⟨rfl, hfiles, hinspected⟩
  refine Wp.bind ((wp_inspectRemovals root _ _).mono ?_ (fun _ _ h => h) (fun _ h => h))
  rintro removals t ⟨rfl, hremovals, hinspected'⟩
  have hheader : ({ entries := files ++ removals
                    generation := manifest.fileSet.generation
                    jobId := jobIdOf root manifest
                    manifestDigest := encodeHex manifest.digest.toList
                    root := root
                    schema := journalSchema } : JournalHeader) = headerOf d root manifest := by
    rw [← headerOf_root hroot, headerOf, entriesOf, ← hfiles, ← hremovals]
  have hentries : entriesOf d root manifest.fileSet = files ++ removals :=
    (congrArg JournalHeader.entries hheader).symm
  dsimp only
  rw [hheader]
  refine Wp.bind ((wp_writeNewJournal _ _ hblank').mono ?_ (fun _ _ h => h) (fun _ h => h))
  rintro _ t₁ ⟨hjournal, hrecorded, hroot₁⟩
  have hbackup₁ : ∀ index, t₁.backup root.canonicalPath (jobIdOf root manifest) index = none := by
    intro index
    have hnone := hbackup index
    simpa [Disk.backup, Disk.reserved, hroot₁, hroot] using hnone
  refine Wp.bind ((wp_prepareTargets stamp root _ hbackup₁).mono ?_ (fun _ _ h => h) (fun _ h => h))
  rintro _ t₂ ⟨hstored, hprepared⟩
  refine Wp.pure ⟨rfl, ?_, ?_, ?_, hstored.backup, hprepared⟩
  · rw [hentries]
    intro entry he
    rw [← localInspectTarget_root hroot]
    obtain he | he := List.mem_append.mp he
    · exact hinspected entry he
    · exact hinspected' entry he
  · simpa [Disk.journal, Disk.directory, Disk.hasJob, hstored.jobs, hstored.entry] using hjournal
  · rw [hstored.history]
    exact hrecorded

omit [Sha256] [Unicode] in
theorem wp_createJobs : Wp Quiet (createJobs.run : JobProg Unit)
    (fun _ t => t.root = d.root ∧ ∀ name, t.hasJob name = d.hasJob name)
    (fun _ t => t.root = d.root ∧ ∀ name, t.hasJob name = d.hasJob name)
    (fun t => t.root = d.root ∧ ∀ name, t.hasJob name = d.hasJob name) d := by
  have hself : d.root = d.root ∧ ∀ name, d.hasJob name = d.hasJob name := ⟨rfl, fun _ => rfl⟩
  refine Wp.step_quiet (Step.Meets.whole .plain (fun _ t heff => ?_) (fun _ => hself) hself)
  cases heff
  have hsame : ∀ name, ({ d with jobs := some (d.jobs.getD []) } : Disk).hasJob name =
      d.hasJob name := by
    intro name
    cases hjobs : d.jobs <;> simp [Disk.hasJob, hjobs]
  exact ⟨⟨rfl, hsame⟩, ⟨rfl, hsame⟩⟩

omit [Sha256] [Unicode] in
theorem wp_createJob (fault : MaintenanceError) :
    Wp Quiet ((createJob jobId fault).run : JobProg Unit)
      (fun _ t => Blank jobId t ∧ t.root = d.root ∧ d.hasJob jobId = false) (fun _ _ => True)
      (fun _ => True) d := by
  apply Wp.step_quiet
  constructor
  · intro _ d' he
    simp only [createJob] at he
    cases hjobs : d.jobs with
    | none => simp [hjobs] at he
    | some names =>
      by_cases hmem : names.contains jobId
      · simp only [hjobs, hmem, if_true, reduceCtorEq] at he
      · simp only [hjobs, hmem, Bool.false_eq_true, if_false, Except.ok.injEq, Prod.mk.injEq,
          true_and] at he
        subst he
        refine ⟨⟨.empty, Disk.directory_setEntry _ ?_, rfl⟩, rfl, ?_⟩
        · simp [Disk.hasJob]
        · simpa [Disk.hasJob, hjobs] using hmem
  all_goals simp

theorem wp_prepareFileSet (manifest : VerifiedFileSet) (root : RegisteredRoot) (absolute : Bool)
    (staging : Staging) (stamp : Stamp) (policy : Policy)
    (hbackup : d.hasJob (jobIdOf root manifest) = false →
      ∀ index, d.backup root.canonicalPath (jobIdOf root manifest) index = none) :
    Wp Quiet (prepareFileSet manifest root absolute staging stamp policy)
      (fun job t => PreparedFrom manifest root policy d job t) (fun _ _ => True) (fun _ => True) d := by
  have hframe := keeps_prepareFileSet manifest root absolute staging stamp policy d Frame.refl
  have hdone : Wp Quiet (prepareFileSet manifest root absolute staging stamp policy)
      (fun job t => Frame root.canonicalPath (jobIdOf root manifest) [] d t →
        PreparedFrom manifest root policy d job t) (fun _ _ => True) (fun _ => True) d := by
    refine Wp.bind (Wp.inspect (fun _ hverified => ?_) (fun _ _ => trivial))
    by_cases hproduct : manifest.fileSet.productId = root.productId
    · simp only [hproduct, ne_eq, not_true_eq_false, if_false]
      cases absolute with
      | false => exact Wp.bind (Wp.throw trivial)
      | true =>
        simp only [Bool.not_true, Bool.false_eq_true, if_false]
        cases declaredSize manifest.fileSet.files 0 with
        | none => exact Wp.throw trivial
        | some required =>
          refine Wp.bind (Wp.lift (fun _ _ => ?_) (fun _ _ => trivial))
          refine Wp.bind (wp_createJobs.mono ?_ (fun _ _ _ => trivial) (fun _ _ => trivial))
          intro _ t ⟨hroot, hjobs⟩
          refine Wp.bind ((wp_createJob _).mono ?_ (fun _ _ h => h) (fun _ h => h))
          intro _ t' ⟨hblank, hroot', hfresh⟩
          refine Wp.bind (Wp.step_quiet (.of_ok .plain rfl ?_ trivial trivial trivial))
          have hsame : t'.root = d.root := hroot'.trans hroot
          have hbackup' : ∀ index,
              t'.backup root.canonicalPath (jobIdOf root manifest) index = none := by
            intro index
            have hnone := hbackup ((hjobs _).symm.trans hfresh) index
            simpa [Disk.backup, Disk.reserved, hsame] using hnone
          have hcontents := wp_prepareJobContents manifest root staging stamp policy hblank hbackup'
          refine Wp.bind (Wp.attempt (hcontents.mono ?_ ?_ (fun _ h => h)))
          · rintro header t₁ ⟨rfl, hinspected, hjournal, hrecorded, hnone, hprepared⟩
            rw [headerOf_root hsame] at hjournal
            have hentries : entriesOf t' root manifest.fileSet = entriesOf d root manifest.fileSet :=
              congrArg JournalHeader.entries (headerOf_root hsame root manifest)
            refine Wp.pure fun hframe => ⟨?_, ?_, hverified, hjournal, hrecorded, hnone, hprepared,
              hframe⟩
            · rw [headerOf_root hsame]
            · intro entry he
              rw [← localInspectTarget_root hsame]
              exact hinspected entry (hentries ▸ he)
          · intro e t₁ _
            have hcleanup : Keeps Quiet
                (Frame root.canonicalPath (jobIdOf root manifest) [] t₁) _ :=
              Keeps.attempt frame_localCleanupJob
            refine Wp.bind ((hcleanup t₁ Frame.refl).mono ?_ (fun _ _ _ => trivial)
              (fun _ _ => trivial))
            exact fun _ _ _ => Wp.throw trivial
    · simp only [hproduct, ne_eq, not_false_eq_true, if_true]
      exact Wp.bind (Wp.throw trivial)
  exact (hdone.and hframe).mono (fun _ _ h => h.1 h.2) (fun _ _ _ => trivial) (fun _ _ => trivial)

end Prepare

end Se7en

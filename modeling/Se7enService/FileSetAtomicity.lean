import Mathlib.Data.List.Pairwise
import Se7enService.CrashAtomic
import Se7enService.ServiceRuns
set_option autoImplicit false

/-! Crash atomicity of a file-set job: from its preparation to the recovery that ends it. -/

namespace Se7en
open Faulty

/-- Neither path is the other one or a directory above it. -/
def Apart (a b : String) : Prop :=
  ¬ targetPath a <+: targetPath b ∧ ¬ targetPath b <+: targetPath a

instance (a b : String) : Decidable (Apart a b) := inferInstanceAs (Decidable (_ ∧ _))

def FileSet.paths (fileSet : FileSet) : List String :=
  fileSet.files.map (·.path) ++ fileSet.removeFiles

/-- Everything at the targets is as the manifest says. -/
structure FileSet.Installed [Sha256] (fileSet : FileSet) (path : String) (d : Disk) : Prop where
  files : ∀ file ∈ fileSet.files, ∃ content : File,
    d.target path (targetPath file.path) = some (.file content) ∧ Matches file content.content
  removed : ∀ removal ∈ fileSet.removeFiles, d.target path (targetPath removal) = none

/-! ### The entries of a manifest are apart -/

section Entries

variable {d : Disk} {root : RegisteredRoot} {fileSet : FileSet} {entry other : JournalEntry}

theorem map_zipIdx_fst {α β : Type} (f : α → β) (xs : List α) :
    xs.zipIdx.map (fun x => f x.1) = xs.map f := by
  have h := congrArg (List.map f) (List.zipIdx_map_fst 0 xs)
  exact List.map_map.symm.trans h

theorem map_zipIdx_snd {α β : Type} (f : Nat → β) (xs : List α) :
    xs.zipIdx.map (fun x => f x.2) = (List.range xs.length).map f := by
  have h := congrArg (List.map f) (List.zipIdx_map_snd 0 xs)
  rw [← List.range_eq_range'] at h
  exact List.map_map.symm.trans h

theorem exists_zipIdx {α : Type} {xs : List α} {x : α} (h : x ∈ xs) : ∃ i, (x, i) ∈ xs.zipIdx := by
  obtain ⟨i, hi⟩ := List.mem_iff_getElem?.mp h
  exact ⟨i, List.mk_mem_zipIdx_iff_getElem?.mpr hi⟩

theorem entriesOf_paths : (entriesOf d root fileSet).map (·.path) = fileSet.paths := by
  have hfiles := map_zipIdx_fst FileEntry.path fileSet.files
  have hremovals := map_zipIdx_fst (fun path : String => path) fileSet.removeFiles
  simp [entriesOf, FileSet.paths, fileEntryOf, removalEntryOf, Function.comp_def, hfiles, hremovals]

theorem entriesOf_indexes : (entriesOf d root fileSet).map (·.transactionIndex) =
    (List.range (fileSet.files.length + fileSet.removeFiles.length)).map UInt32.ofNat := by
  have hfiles := map_zipIdx_snd UInt32.ofNat fileSet.files
  have hremovals := map_zipIdx_snd (fun i => UInt32.ofNat (fileSet.files.length + i))
    fileSet.removeFiles
  simp only [entriesOf, fileEntryOf, removalEntryOf, List.map_append, List.map_map,
    Function.comp_def, hfiles, hremovals, List.range_add]

theorem mem_entriesOf (h : entry ∈ entriesOf d root fileSet) :
    (∃ file ∈ fileSet.files.zipIdx, entry = fileEntryOf d root file) ∨
      ∃ removal ∈ fileSet.removeFiles.zipIdx,
        entry = removalEntryOf d root fileSet.files.length removal := by
  simp only [entriesOf, List.mem_append, List.mem_map] at h
  obtain ⟨file, hfile, rfl⟩ | ⟨removal, hremoval, rfl⟩ := h
  · exact .inl ⟨file, hfile, rfl⟩
  · exact .inr ⟨removal, hremoval, rfl⟩

theorem preparedIndex_of_mem (h : entry ∈ entriesOf d root fileSet) {index : UInt32}
    (hindex : entry.preparedIndex = some index) : entry.transactionIndex = index := by
  obtain ⟨file, _, rfl⟩ | ⟨removal, _, rfl⟩ := mem_entriesOf h
  · simpa [fileEntryOf] using hindex
  · simp [removalEntryOf] at hindex

theorem entriesOf_nodup_indexes
    (hcount : fileSet.files.length + fileSet.removeFiles.length ≤ maxFileEntries) :
    ((entriesOf d root fileSet).map (·.transactionIndex)).Nodup := by
  rw [entriesOf_indexes]
  refine List.Nodup.map_on ?_ List.nodup_range
  intro i hi j hj hij
  rw [List.mem_range] at hi hj
  have hbound : maxFileEntries < 2 ^ 32 := by decide
  have hnat := congrArg UInt32.toNat hij
  simp only [UInt32.toNat_ofNat'] at hnat
  rw [Nat.mod_eq_of_lt (by omega), Nat.mod_eq_of_lt (by omega)] at hnat
  exact hnat

theorem entriesOf_apart
    (hcount : fileSet.files.length + fileSet.removeFiles.length ≤ maxFileEntries)
    (hpaths : fileSet.paths.Pairwise Apart) (he : entry ∈ entriesOf d root fileSet)
    (ho : other ∈ entriesOf d root fileSet) (hne : other ≠ entry) :
    ¬ targetPath other.path <+: targetPath entry.path ∧
      other.transactionIndex ≠ entry.transactionIndex ∧
      ∀ index, other.preparedIndex = some index → entry.preparedIndex ≠ some index := by
  have hapart : (entriesOf d root fileSet).Pairwise fun a b => Apart a.path b.path := by
    rw [← entriesOf_paths (d := d), List.pairwise_map] at hpaths
    exact hpaths
  have hindexes : (entriesOf d root fileSet).Pairwise fun a b =>
      a.transactionIndex ≠ b.transactionIndex :=
    List.pairwise_map.mp (entriesOf_nodup_indexes hcount)
  have : Std.Symm fun a b : JournalEntry => Apart a.path b.path := ⟨fun _ _ h => h.symm⟩
  have : Std.Symm fun a b : JournalEntry => a.transactionIndex ≠ b.transactionIndex :=
    ⟨fun _ _ h => h.symm⟩
  have hdiff := hindexes.forall ho he hne
  refine ⟨(hapart.forall ho he hne).1, hdiff, fun index h h' => ?_⟩
  rw [preparedIndex_of_mem ho h, preparedIndex_of_mem he h'] at hdiff
  exact hdiff rfl

end Entries

theorem validateFileSet_count [Unicode] {fileSet : FileSet} {productId : String}
    (h : validateFileSet fileSet productId = .ok ()) :
    fileSet.files.length + fileSet.removeFiles.length ≤ maxFileEntries := by
  by_contra hcount
  have hover : fileSet.files.length + fileSet.removeFiles.length > maxFileEntries := by omega
  unfold validateFileSet at h
  by_cases hproduct : fileSet.generation = 0 || !validIdentifier fileSet.productId
  · simp [hproduct] at h
  by_cases hexpected : fileSet.productId = productId
  · simp [hexpected, hover] at h
    split at h <;> simp at h
  · simp [hproduct, hexpected] at h

/-! ### From a prepared job to its plan -/

section Plan

variable [Unicode] [Sha256] {manifest : VerifiedFileSet} {root : RegisteredRoot} {policy : Policy}
  {job : PreparedJob} {d t : Disk}

/-- What a prepared job replaces and installs. -/
def PreparedFrom.plan (_ : PreparedFrom manifest root policy d job t) : Plan where
  job := job
  base := d.target root.canonicalPath
  payload := t.prepared root.canonicalPath (jobIdOf root manifest)

theorem PreparedFrom.sound (h : PreparedFrom manifest root policy d job t)
    (hpolicy : policy.usesAtomicReplacement = false)
    (hpaths : manifest.fileSet.paths.Pairwise Apart) : h.plan.Sound := by
  have hcount := validateFileSet_count manifest.valid
  have hjob := h.job
  subst hjob
  have hentries : h.plan.entries = entriesOf d root manifest.fileSet := rfl
  constructor
  · exact hpolicy
  · rw [hentries]
    exact List.Nodup.of_map _ (entriesOf_nodup_indexes hcount)
  · rw [hentries]
    exact fun entry he other ho hne => entriesOf_apart hcount hpaths he ho hne
  · intro entry he
    have hinspected := h.inspected entry he
    cases horiginal : entry.original with
    | none =>
      rw [horiginal] at hinspected
      exact localInspectTarget_node hinspected
    | some snapshot =>
      rw [horiginal] at hinspected
      obtain ⟨file, hfile, -⟩ := localInspectTarget_node hinspected
      exact ⟨file, hfile⟩
  · intro entry he haction
    obtain ⟨file, hfile, rfl⟩ | ⟨removal, _, rfl⟩ := mem_entriesOf (hentries ▸ he)
    · obtain ⟨content, hcontent, -⟩ := h.prepared file hfile
      exact ⟨_, content, rfl, hcontent⟩
    · cases haction
  · intro entry he haction
    obtain ⟨file, _, rfl⟩ | ⟨removal, _, rfl⟩ := mem_entriesOf (hentries ▸ he)
    · cases haction
    · rfl

theorem PreparedFrom.target (h : PreparedFrom manifest root policy d job t) (p : TargetPath) :
    t.target root.canonicalPath p = d.target root.canonicalPath p := by
  obtain hsame | ⟨-, -, entry, he, -⟩ := h.frame.target p (by simp [Targeted])
  · exact hsame
  · simp at he

theorem PreparedFrom.journaled (h : PreparedFrom manifest root policy d job t) :
    h.plan.Journaled [.prepared] t := by
  have hjob := h.job
  subst hjob
  refine ⟨?_, h.recorded, ?_⟩
  · have hjournal := h.journal
    rwa [newJournal_eq] at hjournal
  · have hentry := h.frame.rootEntry
    have hverified := h.verified
    change localVerifyRootIdentity t root = .ok ()
    simp only [localVerifyRootIdentity, hentry] at hverified ⊢
    exact hverified

theorem PreparedFrom.ready (h : PreparedFrom manifest root policy d job t) {entry : JournalEntry}
    (he : entry ∈ h.plan.entries) : h.plan.Ready entry (h.plan.view entry t) := by
  have hjob := h.job
  subst hjob
  exact ⟨⟨h.target _, fun _ => h.backup _⟩, rfl⟩

variable [Deserialize JournalHeader] [Deserialize JournalStateRecord]

theorem PreparedFrom.intact (h : PreparedFrom manifest root policy d job t)
    (hothers : ∀ name header, d.unfinished name header →
      header.root.canonicalPath ≠ root.canonicalPath) : h.plan.Intact t := by
  have hjob := h.job
  subst hjob
  refine ⟨fun p _ => .inl (h.target p), fun name hname header hu => hothers name header ?_⟩
  have hdirectory := h.frame.directory hname
  simpa [Disk.unfinished, Disk.journal, hdirectory] using hu

end Plan

/-! ### The ends of a job -/

section Ends

variable [Unicode] [Sha256] {manifest : VerifiedFileSet} {root : RegisteredRoot} {policy : Policy}
  {job : PreparedJob} {d t t' : Disk}

theorem PreparedFrom.installed (h : PreparedFrom manifest root policy d job t)
    (hset : h.plan.Settled true t') : manifest.fileSet.Installed root.canonicalPath t' := by
  have hjob := h.job
  subst hjob
  simp only [Plan.Settled, if_true] at hset
  constructor
  · intro file hfile
    obtain ⟨i, hi⟩ := exists_zipIdx hfile
    obtain ⟨content, hcontent, hmatches⟩ := h.prepared _ hi
    have hentry : fileEntryOf d root (file, i) ∈ h.plan.entries :=
      List.mem_append_left _ (List.mem_map_of_mem hi)
    have hnode := hset _ hentry
    have hnew : h.plan.new (fileEntryOf d root (file, i)) =
        some (.file { content with origin := .payload h.plan.jobId (UInt32.ofNat i) }) := by
      have hpayload : h.plan.payload (UInt32.ofNat i) = some content := hcontent
      simp [Plan.new, fileEntryOf, hpayload]
    exact ⟨_, hnode.trans hnew, hmatches⟩
  · intro removal hremoval
    obtain ⟨i, hi⟩ := exists_zipIdx hremoval
    have hentry : removalEntryOf d root manifest.fileSet.files.length (removal, i) ∈ h.plan.entries :=
      List.mem_append_right _ (List.mem_map_of_mem hi)
    exact hset _ hentry

theorem PreparedFrom.restored (h : PreparedFrom manifest root policy d job t)
    (hset : h.plan.Settled false t') {path : String} (hpath : path ∈ manifest.fileSet.paths) :
    t'.target root.canonicalPath (targetPath path) = d.target root.canonicalPath (targetPath path) := by
  have hjob := h.job
  subst hjob
  simp only [Plan.Settled, Bool.false_eq_true, if_false] at hset
  rw [← entriesOf_paths (d := d), List.mem_map] at hpath
  obtain ⟨entry, he, rfl⟩ := hpath
  exact (hset entry he).1

theorem PreparedFrom.targeted (h : PreparedFrom manifest root policy d job t) {p : TargetPath} :
    Targeted h.plan.entries p ↔ ∃ path ∈ manifest.fileSet.paths, targetPath path = p := by
  have hjob := h.job
  subst hjob
  rw [← entriesOf_paths (d := d)]
  simp only [List.mem_map, exists_exists_and_eq_and]
  rfl

end Ends

/-! ### From the preparation to the last recovery -/

section Runs

variable [Unicode] [Sha256] [Deserialize JournalHeader] [Deserialize JournalStateRecord]
  [LawfulDeserialize JournalStateRecord] {policy : Policy}

/-- Whatever stops a commit and the recoveries behind it, the recovery that completes leaves
all targets as they were or as the manifest says, and nothing of the job. -/
theorem file_set_atomic (hatomic : policy.usesAtomicReplacement = false)
    (htears : policy.medium.tears = false) (hunknown : policy.medium.unknown .committed = false)
    {s : Service} (hs : Service.Reached policy (fun _ _ => True) s)
    {manifest : VerifiedFileSet} {root : RegisteredRoot}
    (hpaths : manifest.fileSet.paths.Pairwise Apart)
    (hothers : ∀ name header, s.disk.unfinished name header →
      header.root.canonicalPath ≠ root.canonicalPath)
    {absolute : Bool} {staging : Staging} {stamp : Stamp} {sch rest : Schedule Intrusion}
    {job : PreparedJob} {d d₁ d₂ d₃ : Disk} (hquiet : ∀ e ∈ sch, Quiet e)
    (hprepare : prepareFileSet manifest root absolute staging stamp policy s.disk sch =
      (.ok job, d, rest))
    (hcommit : EndsIn Quiet (commitFileSet job) d d₁)
    (hrecoveries : Rounds Quiet (recoverIncompleteWithPolicy policy) d₁ d₂)
    {last lastRest : Schedule Intrusion} {result : RecoveryResult} (hlastQuiet : ∀ e ∈ last, Quiet e)
    (hlast : recoverIncompleteWithPolicy policy d₂ last = (.ok result, d₃, lastRest)) :
    (.committed ∈ d₃.history.recorded job.header.jobId →
      manifest.fileSet.Installed root.canonicalPath d₃) ∧
    (.committed ∉ d₃.history.recorded job.header.jobId →
      ∀ path ∈ manifest.fileSet.paths, d₃.target root.canonicalPath (targetPath path) =
        s.disk.target root.canonicalPath (targetPath path)) ∧
    (∀ p, (¬ ∃ path ∈ manifest.fileSet.paths, targetPath path = p) →
      d₃.target root.canonicalPath p = s.disk.target root.canonicalPath p ∨
        s.disk.target root.canonicalPath p = none ∧
          d₃.target root.canonicalPath p = some .directory) ∧
    d₃.hasJob job.header.jobId = false ∧
    d₃.reserved root.canonicalPath job.header.jobId = none ∧
    ∀ sch, recoverIncompleteWithPolicy policy d₃ sch = (.ok {}, d₃, sch) := by
  have htidy := (hs.sane hatomic).tidy
  have hprepared := ((wp_prepareFileSet_tidy htidy manifest root absolute staging stamp).result
    hquiet hprepare).1
  have hjob := hprepared.job
  subst hjob
  have hsound := hprepared.sound hatomic hpaths
  have hstart : hprepared.plan.Intact d := hprepared.intact hothers
  have hcommitted : ∃ c, hprepared.plan.Safe c d₁ ∧ hprepared.plan.Intact d₁ := by
    obtain ⟨sch₁, o, rest₁, hquiet₁, hrun⟩ := hcommit
    have hsafe := (wp_commitFileSet hsound htears hunknown hprepared.journaled
      fun entry he => hprepared.ready he).result hquiet₁ hrun
    have hframe := (frame_commitFileSet hatomic).endsIn
      Frame.refl ⟨sch₁, o, rest₁, hquiet₁, hrun⟩
    have hintact := hstart.frame hframe
    cases o with
    | ok _ => exact ⟨true, hsafe, hintact⟩
    | error _ => exact ⟨false, hsafe, hintact⟩
    | crashed =>
      obtain ⟨c, hsafe⟩ := hsafe
      exact ⟨c, hsafe, hintact⟩
  obtain ⟨c, hsafe₁, hintact₁⟩ := hcommitted
  have hkeeps : Keeps Quiet (fun t => hprepared.plan.Safe c t ∧ hprepared.plan.Intact t)
      (recoverIncompleteWithPolicy policy) := by
    intro t ht
    exact (wp_recoverIncomplete hsound htears ht.1 ht.2).mono (fun _ _ h => h.1) (fun _ _ h => h)
      (fun _ h => h)
  obtain ⟨hsafe₂, hintact₂⟩ := hkeeps.rounds ⟨hsafe₁, hintact₁⟩ hrecoveries
  have hend := (wp_recoverIncomplete hsound htears hsafe₂ hintact₂).result hlastQuiet hlast
  obtain ⟨⟨hsafe₃, hintact₃⟩, hidle⟩ := hend
  have hgone : hprepared.plan.Gone c d₃ := by
    refine hsafe₃.gone_of_journal ?_
    simp [Disk.journal, Disk.directory, hidle]
  refine ⟨?_, ?_, ?_, hidle _, hgone.reserved, recoverIncomplete_idle policy hidle⟩
  · intro hcommitted
    obtain rfl : c = true := hgone.recorded.trans (decide_eq_true hcommitted)
    exact hprepared.installed hgone.settled
  · intro hcommitted path hpath
    obtain rfl : c = false := hgone.recorded.trans (decide_eq_false hcommitted)
    exact hprepared.restored hgone.settled hpath
  · intro p hp
    exact hintact₃.around p (mt hprepared.targeted.mp hp)

end Runs

/-! ### One job -/

/-- Lower case as far as the paths of the sample go. -/
@[reducible] def sampleUnicode : Unicode := ⟨fun s => s.map Char.toLower⟩

/-- SHA-256 on the one payload of the sample. -/
@[reducible] def sampleSha256 : Sha256 where
  digest bytes :=
    if bytes = [1] then
      [75, 245, 18, 47, 52, 69, 84, 197, 59, 222, 46, 187, 140, 210, 183, 227, 209, 96, 10, 214, 49,
        195, 133, 165, 215, 204, 226, 60, 119, 133, 69, 154]
    else []

@[reducible] def sampleRecords : Deserialize JournalStateRecord where
  fromSlice bytes :=
    [⟨.prepared⟩, ⟨.committing⟩, ⟨.committed⟩, ⟨.rollingBack⟩].find? (lineText · = bytes)

theorem sampleRecords_lawful : @LawfulDeserialize JournalStateRecord _ sampleRecords := by
  refine @LawfulDeserialize.mk JournalStateRecord _ sampleRecords ?_
  intro document bytes h
  rw [canonicalJson_lineText] at h
  cases h
  obtain ⟨state⟩ := document
  cases state <;> decide

attribute [local instance] sampleUnicode sampleSha256 sampleRecords sampleRecords_lawful

def sampleFileSet : FileSet where
  files := [⟨"a", "4bf5122f344554c53bde2ebb8cd2b7e3d1600ad631c385a5d7cce23c7785459a", 1⟩]
  generation := 1
  keyId := "key"
  kind := "file-set"
  productId := "launcher"
  removeFiles := ["b"]
  schema := 1
  signature := ""

def sampleManifest : VerifiedFileSet where
  fileSet := sampleFileSet
  digest := Vector.replicate 32 0
  valid := by decide +kernel

def sampleFile (byte : UInt8) : File where
  content := [byte]
  identity := ⟨1, Vector.replicate 16 byte⟩
  lastWriteTime := 1
  links := 1
  origin := .existing

/-- A root with these files in it. -/
def sampleDisk (node : TargetPath → Option Node) : Disk where
  root path :=
    if path = sampleRoot.canonicalPath then
      ⟨some ⟨path, false, sampleRoot.identity⟩, node, fun _ => none⟩
    else ⟨none, fun _ => none, fun _ => none⟩
  jobs := none
  entry := fun _ => .unexpected
  history := ⟨fun _ => [], fun _ => false, fun _ => false, [], []⟩

def samplePolicy (medium : Medium) : Policy where
  usesAtomicReplacement := false
  atomicReplaceTarget _ _ _ _ _ := pure false
  atomicRestoreBackup _ _ _ _ := pure false
  rejection _ := .policyRejection .transactionIo
  medium := medium

theorem sampleDisk_reached {policy : Policy} {node : TargetPath → Option Node}
    [Deserialize JournalHeader] {Admits : Service → PreparedJob → Prop} :
    Service.Reached policy Admits (.start (sampleDisk node)) := by
  refine .start ⟨rfl, fun path jobId index => ?_⟩
  simp only [sampleDisk, Disk.backup, Disk.reserved]
  split <;> rfl

section Interrupted

def twoFiles : TargetPath → Option Node := fun p =>
  if p = [['a']] then some (.file (sampleFile 7))
  else if p = [['b']] then some (.file (sampleFile 8))
  else none

@[reducible] def sampleHeaders : Deserialize JournalHeader where
  fromSlice bytes :=
    let header := headerOf (sampleDisk twoFiles) sampleRoot sampleManifest
    if bytes = lineText header then some header else none

attribute [local instance] sampleHeaders

def quietPolicy : Policy := samplePolicy ⟨false, fun _ => false⟩

def samplePrepare : Faulty.Result Disk MaintenanceError Intrusion PreparedJob :=
  prepareFileSet sampleManifest sampleRoot true (fun _ => .ok [[1]])
    (fun _ _ => (⟨1, Vector.replicate 16 2⟩, 2)) quietPolicy (sampleDisk twoFiles) []

def sampleJob : PreparedJob where
  header := headerOf (sampleDisk twoFiles) sampleRoot sampleManifest
  policy := quietPolicy

/-- The commit is cut off when the first target has become a backup. -/
def sampleCommit : Faulty.Result Disk MaintenanceError Intrusion CommitResult :=
  commitFileSet sampleJob samplePrepare.2.1 (List.replicate 6 .go ++ [.crash .before])

def sampleRecovery : Faulty.Result Disk MaintenanceError Intrusion RecoveryResult :=
  recoverIncompleteWithPolicy quietPolicy sampleCommit.2.1 []

theorem file_set_atomic_interrupted :
    sampleCommit.2.1.target sampleRoot.canonicalPath [['a']] = none ∧
    sampleRecovery.2.1.target sampleRoot.canonicalPath [['a']] = some (.file (sampleFile 7)) ∧
    sampleRecovery.2.1.reserved sampleRoot.canonicalPath sampleJob.header.jobId = none ∧
    ∀ sch, recoverIncompleteWithPolicy quietPolicy sampleRecovery.2.1 sch =
      (.ok {}, sampleRecovery.2.1, sch) := by
  have hreached : Service.Reached quietPolicy (fun _ _ => True) (.start (sampleDisk twoFiles)) :=
    sampleDisk_reached
  have hprepare : samplePrepare = (.ok sampleJob, samplePrepare.2.1, samplePrepare.2.2) := by
    obtain ⟨job, hprepare⟩ := exists_ok (r := samplePrepare) (by decide +kernel)
    have hprepared := (wp_prepareFileSet_tidy (hreached.sane rfl).tidy sampleManifest sampleRoot true
      _ _).result (by simp) hprepare
    rw [hprepare, hprepared.1.job]
    rfl
  have hruns : sampleRecovery.1.isOk = true ∧
      .committed ∉ sampleRecovery.2.1.history.recorded sampleJob.header.jobId ∧
      sampleCommit.2.1.target sampleRoot.canonicalPath [['a']] = none := by
    decide +kernel
  obtain ⟨hrecovered, hrecorded, hmissing⟩ := hruns
  obtain ⟨result, hlast⟩ := exists_ok hrecovered
  have hothers : ∀ name header, (sampleDisk twoFiles).unfinished name header →
      header.root.canonicalPath ≠ sampleRoot.canonicalPath := by
    rintro name header ⟨bytes, state, hbytes, -⟩
    cases hbytes
  have hcommit : EndsIn Quiet (commitFileSet sampleJob) samplePrepare.2.1 sampleCommit.2.1 :=
    EndsIn.of_run (r := sampleCommit) rfl (by simp [Quiet])
  have hpaths : sampleManifest.fileSet.paths.Pairwise Apart := by decide
  obtain ⟨-, hrestored, -, -, hreserved, hidle⟩ := file_set_atomic rfl rfl rfl
    hreached hpaths hothers (by simp) hprepare hcommit .refl (by simp) hlast
  have hold := hrestored hrecorded "a" (by decide)
  have htarget : targetPath "a" = [['a']] := by decide
  have hsame : (sampleDisk twoFiles).target sampleRoot.canonicalPath [['a']] =
      some (.file (sampleFile 7)) := by decide
  rw [htarget] at hold
  exact ⟨hmissing, hold.trans hsame, hreserved, hidle⟩

end Interrupted

end Se7en

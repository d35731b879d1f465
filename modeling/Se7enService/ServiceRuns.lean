import Se7enService.ServiceJobs
import Se7enService.ServiceTidy
set_option autoImplicit false

/-! What holds in every state that the service reaches. -/

namespace Se7en
open Faulty

section Runs

variable [Unicode] [Sha256]

/-- A prepared job that waits for its commit. -/
structure Waiting (policy : Policy) (job : PreparedJob) (fileSet : FileSet) (d : Disk) : Prop where
  policy : job.policy = policy
  valid : validateFileSet fileSet fileSet.productId = .ok ()
  entries : ∃ d₀, job.header.entries = entriesOf d₀ job.header.root fileSet
  journal : d.journal job.header.jobId = some (newJournal job.header)
  bare : Bare job.header.jobId d
  prepared : ∀ file ∈ fileSet.files.zipIdx, ∃ content : File,
    d.prepared job.header.root.canonicalPath job.header.jobId (UInt32.ofNat file.2) = some content ∧
      Matches file.1 content.content

structure Service.Sane (policy : Policy) (s : Service) : Prop where
  tidy : Tidy s.disk
  waiting : ∀ job fileSet, s.activeJob = some (.prepared job fileSet) →
    Waiting policy job fileSet s.disk

variable {policy : Policy} {d d' : Disk}

omit [Unicode] [Sha256] in
theorem Disk.Untouched.directory (h : d.Untouched d') (name : String) :
    d'.directory name = d.directory name := by
  simp [Disk.directory, Disk.hasJob, h.jobs, h.entry]

omit [Unicode] [Sha256] in
theorem Disk.Untouched.journal (h : d.Untouched d') (name : String) :
    d'.journal name = d.journal name := by
  simp [Disk.journal, h.directory]

omit [Unicode] [Sha256] in
theorem Disk.Untouched.backup (h : d.Untouched d') (path jobId : String) (index : UInt32) :
    d'.backup path jobId index = d.backup path jobId index := by
  simp [Disk.backup, h.reserved]

omit [Unicode] [Sha256] in
theorem Tidy.untouched (hd : Tidy d) (h : d.Untouched d') : Tidy d' :=
  fun name => (hd name).congr (fun path index => h.backup path name index) (h.journal name)

theorem Waiting.untouched {job : PreparedJob} {fileSet : FileSet}
    (hw : Waiting policy job fileSet d) (h : d.Untouched d') : Waiting policy job fileSet d' where
  policy := hw.policy
  valid := hw.valid
  entries := hw.entries
  journal := by
    rw [h.journal]
    exact hw.journal
  bare path index := by
    rw [h.backup]
    exact hw.bare path index
  prepared file hfile := by
    have hprepared := hw.prepared file hfile
    simpa [Disk.prepared, h.reserved] using hprepared

/-- A new job starts without backups. -/
theorem wp_prepareFileSet_tidy (hd : Tidy d) (manifest : VerifiedFileSet) (root : RegisteredRoot)
    (absolute : Bool) (staging : Staging) (stamp : Stamp) :
    Wp Quiet (prepareFileSet manifest root absolute staging stamp policy)
      (fun job t => PreparedFrom manifest root policy d job t ∧ Starting (jobIdOf root manifest) t)
      (fun _ t => Starting (jobIdOf root manifest) t ∨ d.Same t)
      (fun t => Starting (jobIdOf root manifest) t ∨ d.Same t) d := by
  have hbackup : d.hasJob (jobIdOf root manifest) = false →
      ∀ index, d.backup root.canonicalPath (jobIdOf root manifest) index = none := by
    intro hmissing
    have hnone : d.journal (jobIdOf root manifest) = none := by
      simp [Disk.journal, Disk.directory, hmissing]
    exact (hd (jobIdOf root manifest)).bare hnone root.canonicalPath
  have hprepared := wp_prepareFileSet manifest root absolute staging stamp policy hbackup
  have hstarting := wp_starting_prepareFileSet manifest root absolute staging stamp policy
    (hd (jobIdOf root manifest))
  exact (hprepared.and hstarting).mono (fun _ _ h => h) (fun _ _ h => h.2) (fun _ h => h.2)

theorem PreparedFrom.waiting {manifest : VerifiedFileSet} {root : RegisteredRoot}
    {job : PreparedJob} {t : Disk} (h : PreparedFrom manifest root policy d job t)
    (hs : Starting (jobIdOf root manifest) t) : Waiting policy job manifest.fileSet t := by
  obtain rfl := h.job
  exact ⟨rfl, manifest.valid, ⟨d, rfl⟩, h.journal, hs.bare, h.prepared⟩

omit [Unicode] [Sha256] in
theorem Tidy.prepared (hd : Tidy d) {name path : String} {t : Disk}
    (hframe : Frame path name [] d t) (h : Starting name t ∨ d.Same t) : Tidy t := by
  refine hd.frame hframe ?_
  obtain h | h := h
  · exact h.bare.anchored
  · refine (hd name).congr (fun q index => ?_) (by simp [Disk.journal, h.directory])
    simp [Disk.backup, Disk.reserved, h.root]

theorem tidy_prepareFileSet (manifest : VerifiedFileSet) (root : RegisteredRoot) (absolute : Bool)
    (staging : Staging) (stamp : Stamp) :
    Keeps Quiet Tidy (prepareFileSet manifest root absolute staging stamp policy) := by
  intro d hd
  have hframe := keeps_prepareFileSet manifest root absolute staging stamp policy d Frame.refl
  have hstarting := wp_starting_prepareFileSet manifest root absolute staging stamp policy
    (hd (jobIdOf root manifest))
  exact (hframe.and hstarting).mono (fun _ _ h => hd.prepared h.1 (.inl h.2))
    (fun _ _ h => hd.prepared h.1 h.2) (fun _ h => hd.prepared h.1 h.2)

theorem Waiting.wp_tidy {job : PreparedJob} {fileSet : FileSet}
    (hpolicy : policy.usesAtomicReplacement = false) (hw : Waiting policy job fileSet d)
    (hd : Tidy d) :
    Wp Quiet (commitFileSet job) (fun _ => Tidy) (fun _ => Tidy) Tidy d := by
  have hatomic : job.policy.usesAtomicReplacement = false := hw.policy ▸ hpolicy
  have hframe := frame_commitFileSet hatomic d Frame.refl
  have hkept := wp_kept_commitFileSet hatomic hw.journal hw.bare
  have htidy : ∀ t, job.Frames job.header.entries d t ∧ Kept job.header t → Tidy t :=
    fun t ht => hd.frame ht.1 ht.2.anchored
  exact (hframe.and hkept).mono (fun _ t h => htidy t h) (fun _ t h => htidy t h) htidy

variable [Deserialize JournalHeader] [Deserialize JournalStateRecord]
  [LawfulDeserialize JournalStateRecord] {Admits : Service → PreparedJob → Prop} {s t : Service}

theorem Service.Step.sane (hpolicy : policy.usesAtomicReplacement = false)
    (hs : s.Sane policy) (h : Service.Step policy Admits s t) : t.Sane policy := by
  cases h with
  | prepare manifest root absolute staging stamp recorded haccepts hquiet hrun =>
    have htidy := (tidy_prepareFileSet manifest root absolute staging stamp).endsIn hs.tidy
      ⟨_, _, _, hquiet, hrun⟩
    have hend := (wp_prepareFileSet_tidy hs.tidy manifest root absolute staging stamp).result
      hquiet hrun
    rename_i outcome d
    cases outcome with
    | ok job =>
      refine ⟨htidy, fun job' fileSet hactive => ?_⟩
      cases recorded with
      | false => cases hactive
      | true =>
        cases hactive
        exact hend.1.waiting hend.2
    | error e => exact ⟨htidy, fun _ _ hactive => by cases hactive⟩
    | crashed => exact ⟨htidy, fun _ _ hactive => by cases hactive⟩
  | commit hrunning hactive hadmits hquiet hrun =>
    have htidy := ((hs.waiting _ _ hactive).wp_tidy hpolicy hs.tidy).result hquiet hrun
    rename_i outcome d
    cases outcome with
    | ok result => exact ⟨htidy, fun _ _ hactive => by cases hactive⟩
    | error e => exact ⟨htidy, fun _ _ hactive => by cases hactive⟩
    | crashed => exact ⟨htidy, fun _ _ hactive => by cases hactive⟩
  | restart hquiet hrun =>
    have htidy := (tidy_recoverIncomplete hpolicy).endsIn hs.tidy ⟨_, _, _, hquiet, hrun⟩
    rename_i outcome d
    cases outcome with
    | ok result => exact ⟨htidy, fun _ _ hactive => by cases hactive⟩
    | error e => exact ⟨htidy, fun _ _ hactive => by cases hactive⟩
    | crashed => exact ⟨htidy, fun _ _ hactive => by cases hactive⟩
  | outside huntouched _ =>
    exact ⟨hs.tidy.untouched huntouched, fun job fileSet hactive =>
      (hs.waiting job fileSet hactive).untouched huntouched⟩

theorem Service.Reached.sane (hpolicy : policy.usesAtomicReplacement = false)
    (h : Service.Reached policy Admits s) : s.Sane policy := by
  induction h with
  | start hunused =>
    refine ⟨fun name => ?_, fun _ _ hactive => by cases hactive⟩
    exact Bare.anchored fun path index => hunused.backup path name index
  | step _ hstep ih => exact hstep.sane hpolicy ih

end Runs

end Se7en

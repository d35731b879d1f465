import Se7enService.DirectAtomicity
import Se7enService.FileSetAtomicity
set_option autoImplicit false

/-! Preparing a direct update: what the platform lets through is the preparation of
`Transaction`, and the job that comes out of it is one that a commit can start from. -/

namespace Se7en
open Faulty

/-! ### Preparing over a platform -/

namespace TransactionPlatform

section Agreement

variable [Unicode] [Sha256] {platform : TransactionPlatform} {I : Disk → Prop} {stamp : Stamp}
  {root : RegisteredRoot} {Allowed : String → Prop} {jobId : String}

omit [Unicode] in
theorem localPrepareTargetPayload_bind (jobId : String) (entry : FileEntry) (index : Nat)
    (entries : List (FileEntry × Nat)) :
    (do localPrepareTargetPayload stamp root jobId index entry
        Se7en.prepareTargets stamp root jobId entries) =
      Se7en.prepareTargets stamp root jobId ((entry, index) :: entries) := by
  unfold localPrepareTargetPayload
  simp only [Se7en.prepareTargets, bind_assoc]
  refine bind_congr fun _ => bind_congr fun payload => ?_
  cases payload with
  | none => rfl
  | some payload => simp only [bind_assoc]

/-- The platform also prepares files as the local one does, and what a preparation changes
keeps `I`. -/
structure Prepares (platform : TransactionPlatform) (I : Disk → Prop) (stamp : Stamp)
    (root : RegisteredRoot) (Allowed : String → Prop) : Prop where
  like : platform.Like Quiet I root Allowed
  space : ∀ required, platform.ensureAvailableSpace required = Se7en.ensureAvailableSpace required
  target : ∀ jobId index (entry : FileEntry), Allowed entry.path →
    Agrees Quiet I (platform.prepareTargetPayload root jobId index entry)
      (localPrepareTargetPayload stamp root jobId index entry)
  framed : ∀ jobId d t, I d → Frame root.canonicalPath jobId [] d t → I t

omit [Unicode] [Sha256] in
theorem keeps_of_frame {α : Type} {p : JobProg α}
    (hI : ∀ d t, I d → Frame root.canonicalPath jobId [] d t → I t)
    (h : ∀ d₀, Keeps Quiet (Frame root.canonicalPath jobId [] d₀) p) : Keeps Quiet I p :=
  fun d hd => (h d d Frame.refl).mono (fun _ t hf => hI d t hd hf) (fun _ t hf => hI d t hd hf)
    fun t hf => hI d t hd hf

omit [Unicode] in
theorem agrees_prepareTargets (h : platform.Prepares I stamp root Allowed)
    {files : List (FileEntry × Nat)} (hallowed : ∀ file ∈ files, Allowed file.1.path) :
    Agrees Quiet I (platform.prepareTargets root jobId files)
      (Se7en.prepareTargets stamp root jobId files) := by
  induction files with
  | nil => exact Agrees.refl
  | cons file files ih =>
    obtain ⟨entry, index⟩ := file
    rw [List.forall_mem_cons] at hallowed
    rw [← localPrepareTargetPayload_bind]
    refine Agrees.bind (h.target jobId index entry hallowed.1) ?_ fun _ => ih hallowed.2
    refine keeps_of_frame (h.framed jobId) fun d₀ => ?_
    have hone : Keeps Quiet (Frame root.canonicalPath jobId [] d₀) _ :=
      keeps_prepareTargets stamp root [(entry, index)]
    rw [← localPrepareTargetPayload_bind] at hone
    simpa [Se7en.prepareTargets] using hone

omit [Unicode] [Sha256] in
theorem agrees_inspectFiles (h : platform.Like Quiet I root Allowed)
    {files : List (FileEntry × Nat)} (hallowed : ∀ file ∈ files, Allowed file.1.path) :
    Agrees Quiet I (platform.inspectFiles root files) (Se7en.inspectFiles root files) := by
  induction files with
  | nil => exact Agrees.refl
  | cons file files ih =>
    rw [List.forall_mem_cons] at hallowed
    refine Agrees.bind (agrees_inspect (h.inspectTarget _ hallowed.1)) (keeps_inspect _) fun _ => ?_
    exact agrees_bind (ih hallowed.2)

theorem agrees_prepareJobContents (h : platform.Prepares I stamp root Allowed)
    {manifest : VerifiedFileSet} (hfiles : ∀ file ∈ manifest.fileSet.files, Allowed file.path)
    (hremovals : manifest.fileSet.removeFiles = []) (staging : Staging) (policy : Policy) :
    Agrees Quiet I (platform.prepareJobContents manifest root staging policy jobId)
      (Se7en.prepareJobContents manifest root staging stamp policy jobId) := by
  have hallowed : ∀ file ∈ manifest.fileSet.files.zipIdx, Allowed file.1.path :=
    fun file hfile => hfiles _ (List.fst_mem_of_mem_zipIdx hfile)
  have hkeeps : ∀ {α : Type} {p : JobProg α},
      (∀ d₀, Keeps Quiet (Frame root.canonicalPath jobId [] d₀) p) → Keeps Quiet I p :=
    fun hp => keeps_of_frame (h.framed jobId) hp
  refine Agrees.bind Agrees.refl (hkeeps fun _ => keeps_copyPayloads _ _) fun _ => ?_
  refine Agrees.bind (agrees_inspectFiles h.like hallowed) (keeps_inspectFiles _ _) fun files => ?_
  rw [hremovals]
  refine Agrees.bind Agrees.refl (Keeps.pure _) fun removals => ?_
  refine Agrees.bind Agrees.refl (hkeeps fun _ => keeps_writeNewJournal _ _) fun _ => ?_
  exact agrees_bind (agrees_prepareTargets h hallowed)

theorem agrees_prepareFileSet (h : platform.Prepares I stamp root Allowed)
    {manifest : VerifiedFileSet} (hfiles : ∀ file ∈ manifest.fileSet.files, Allowed file.path)
    (hremovals : manifest.fileSet.removeFiles = []) (absolute : Bool) (staging : Staging)
    (policy : Policy) :
    Agrees Quiet I (platform.prepareFileSet manifest root absolute staging policy)
      (Se7en.prepareFileSet manifest root absolute staging stamp policy) := by
  have hkeeps : ∀ {α : Type} {p : JobProg α},
      (∀ d₀, Keeps Quiet (Frame root.canonicalPath (jobIdOf root manifest) [] d₀) p) →
        Keeps Quiet I p :=
    fun hp => keeps_of_frame (h.framed _) hp
  refine Agrees.bind (agrees_inspect h.like.verifyRootIdentity) (keeps_inspect _) fun _ => ?_
  by_cases hproduct : manifest.fileSet.productId = root.productId
  · simp only [hproduct, ne_eq, not_true_eq_false, if_false]
    cases absolute with
    | false => exact Agrees.refl
    | true =>
      simp only [Bool.not_true, Bool.false_eq_true, if_false]
      cases declaredSize manifest.fileSet.files 0 with
      | none => exact Agrees.refl
      | some required =>
        dsimp only
        rw [h.space required]
        refine Agrees.bind Agrees.refl (Keeps.lift _) fun _ => ?_
        refine Agrees.bind Agrees.refl (hkeeps fun _ => keeps_createJobs) fun _ => ?_
        refine Agrees.bind Agrees.refl (hkeeps fun _ => keeps_frame_private (private_createJob _)
          (fun _ _ => Private.refl) (fun _ _ => Private.refl)) fun _ => ?_
        refine Agrees.bind Agrees.refl (Keeps.step_quiet (fun _ h => h) (fun _ _ h => h)
          fun _ _ h => h) fun _ => ?_
        refine Agrees.bind (Agrees.attempt (agrees_prepareJobContents h hfiles hremovals staging
          policy)) (Keeps.attempt (hkeeps fun _ => keeps_prepareJobContents _ _ _ _ _))
          fun outcome => ?_
        cases outcome with
        | ok header => exact Agrees.refl
        | error e => exact agrees_bind (Agrees.attempt (h.like.cleanupJob _))
  · simp only [ne_eq, hproduct, not_false_eq_true, if_true]
    exact Agrees.refl

end Agreement

end TransactionPlatform

section Plain

variable [Unicode] [Sha256] {manifest : VerifiedFileSet} {root : RegisteredRoot} {policy : Policy}
  {job : PreparedJob} {d t : Disk}

theorem PreparedFrom.plain (h : PreparedFrom manifest root policy d job t) :
    PreparedFrom manifest root { policy with usesAtomicReplacement := false } d
      { job with policy := { policy with usesAtomicReplacement := false } } t :=
  { h with job := by rw [h.job] }

theorem PreparedFrom.plain_sound (h : PreparedFrom manifest root policy d job t)
    (hpaths : manifest.fileSet.paths.Pairwise Apart) : h.plan.plain.Sound := by
  have hjob := h.job
  subst hjob
  exact h.plain.sound rfl hpaths

end Plain

namespace Direct

/-! ### The job that comes out -/

section Prepared

variable [Unicode] [Sha256] {context : DirectContext} {manifest : VerifiedFileSet}
  {job : PreparedJob} {d t : Disk}

omit [Unicode] in
theorem DirectPlatform.prepares (self : DirectPlatform) :
    self.platform.Prepares (Verified self.root) self.stamp self.root
      (fun path => pathAllowed path self.launcher = true) where
  like := self.like
  space required := by
    unfold TransactionPlatform.ensureAvailableSpace Se7en.ensureAvailableSpace
    by_cases hrequired : 2 * required.toNat < UInt64.size
    · have hle : ¬ UInt64.size ≤ 2 * required.toNat := by omega
      simp [platform, inner, TransactionPlatform.localPlatform, rejectIf, hrequired, hle]
      have hmax : UInt64.size = 18446744073709551616 := rfl
      omega
    · have hle : UInt64.size ≤ 2 * required.toNat := by omega
      simp [platform, inner, TransactionPlatform.localPlatform, rejectIf, hrequired, hle]
  target jobId index entry hallowed :=
    agrees_checked (fun _ hd => target_self hallowed hd) Agrees.refl
  framed _ _ _ hd hf := hd.of_rootEntry hf.rootEntry

omit [Unicode] [Sha256] in
theorem validatePlan_removeFiles {fileSet : FileSet} {launcher : String}
    (h : validatePlan fileSet launcher = .ok ()) : fileSet.removeFiles = [] := by
  unfold validatePlan at h
  dsimp only at h
  split at h
  · cases h
  · rename_i hcount
    simp only [Bool.or_eq_true, not_or, Bool.not_eq_true'] at hcount
    simpa using hcount.1.2

theorem mem_entries_of_plan (h : PreparedFrom manifest context.root context.policy d job t)
    (hplan : validatePlan manifest.fileSet context.launcher = .ok ()) {entry : JournalEntry}
    (he : entry ∈ job.header.entries) :
    ∃ file ∈ manifest.fileSet.files.zipIdx, entry = fileEntryOf d context.root file := by
  have hjob := h.job
  subst hjob
  obtain hfile | ⟨removal, hremoval, -⟩ := mem_entriesOf (he : entry ∈ entriesOf d _ _)
  · exact hfile
  · simp [validatePlan_removeFiles hplan] at hremoval

theorem covered_of_prepared (h : PreparedFrom manifest context.root context.policy d job t)
    (hplan : validatePlan manifest.fileSet context.launcher = .ok ()) : Covered context job where
  owns := by
    refine ⟨by rw [h.job], fun entry he => ?_, fun entry he => ?_⟩
    all_goals
      obtain ⟨file, -, rfl⟩ := mem_entries_of_plan h hplan he
      rfl
  root := by rw [h.job]; rfl
  paths entry he := by
    obtain ⟨file, hfile, rfl⟩ := mem_entries_of_plan h hplan he
    exact validatePlan_allowed hplan _ (List.fst_mem_of_mem_zipIdx hfile)

variable [Deserialize JournalHeader] [Deserialize JournalStateRecord]

theorem alone_of_prepared (h : PreparedFrom manifest context.root context.policy d job t)
    (hjobs : ∀ name, d.hasJob name = false) (hbare : ∀ name, Bare name d) (splits : Bool) :
    Alone h.plan splits false t where
  stands := by
    refine Plan.Settled.stands ?_ h.journaled
    simp only [Plan.Settled, Bool.false_eq_true, if_false]
    exact fun entry he => (h.ready he).1
  intact := by
    refine h.intact fun name header hunfinished => ?_
    obtain ⟨bytes, state, hbytes, -⟩ := hunfinished
    simp [Disk.journal, Disk.directory, hjobs name] at hbytes
  only name hname := by
    have hjob := h.job
    subst hjob
    exact (h.frame.hasJob name hname).trans (hjobs name)
  bare path name hother index := by
    have hjob := h.job
    subst hjob
    have hnone := hbare name path index
    by_cases hpath : path = context.root.canonicalPath
    · subst hpath
      have hname := hother.resolve_left fun hne => hne rfl
      simpa [Disk.backup, h.frame.reserved name hname] using hnone
    · simpa [Disk.backup, Disk.reserved, h.frame.root path hpath] using hnone

omit [Deserialize JournalHeader] [Deserialize JournalStateRecord] in
/-- What a preparation leaves behind; the targets are as they were. -/
theorem wp_prepareUpdate (hplan : validatePlan manifest.fileSet context.launcher = .ok ())
    (hbare : ∀ name, Bare name d) (staging : Staging) :
    Wp Quiet (context.toDirectPlatform.platform.prepareFileSet manifest context.root true staging
        context.policy)
      (fun job t => PreparedFrom manifest context.root context.policy d job t)
      (fun _ t => Frame context.root.canonicalPath (jobIdOf context.root manifest) [] d t ∧
        (Starting (jobIdOf context.root manifest) t ∨ d.Same t))
      (fun t => Frame context.root.canonicalPath (jobIdOf context.root manifest) [] d t ∧
        (Starting (jobIdOf context.root manifest) t ∨ d.Same t)) d := by
  by_cases hverified : Verified context.root d
  · refine (TransactionPlatform.agrees_prepareFileSet context.toDirectPlatform.prepares
      (validatePlan_allowed hplan) (validatePlan_removeFiles hplan) true staging
      context.policy).wp hverified ?_
    have hprepared := wp_prepareFileSet manifest context.root true staging context.stamp
      context.policy fun _ index => hbare (jobIdOf context.root manifest) _ index
    have hstarting := wp_starting_prepareFileSet manifest context.root true staging context.stamp
      context.policy (hbare (jobIdOf context.root manifest)).anchored
    have hframe := keeps_prepareFileSet manifest context.root true staging context.stamp
      context.policy d Frame.refl
    exact (hprepared.and (hframe.and hstarting)).mono (fun _ _ h => h.1) (fun _ _ h => h.2)
      (fun _ h => h.2)
  · refine Wp.bind (Wp.inspect (fun _ h => ?_) (fun _ _ => ⟨Frame.refl, .inr ⟨rfl, fun _ => rfl⟩⟩))
    exact absurd ((context.toDirectPlatform.bound_self d).symm.trans h) hverified

end Prepared

end Direct

end Se7en

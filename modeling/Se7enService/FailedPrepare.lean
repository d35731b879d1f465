import Se7enService.OneTransaction
import Se7enService.PrepareSpec
import Se7enService.SaveFaults

set_option autoImplicit false

/-! What a `PrepareFileSet` that is answered with an error leaves behind. -/

namespace Se7en
open Faulty

/-! ### The directories of a job -/

/-- The private jobs directory and the reserved directories of the roots hold the same. -/
structure Disk.SameDirectories (d t : Disk) : Prop where
  hasJob : ∀ name, t.hasJob name = d.hasJob name
  directory : ∀ name, t.directory name = d.directory name
  reserved : ∀ p j, t.reserved p j = d.reserved p j

/-- Nothing is changed but the directories of this job. -/
structure Disk.OthersKept (path jobId : String) (d t : Disk) : Prop where
  hasJob : ∀ name, name ≠ jobId → t.hasJob name = d.hasJob name
  directory : ∀ name, name ≠ jobId → t.directory name = d.directory name
  reserved : ∀ p j, ¬ (p = path ∧ j = jobId) → t.reserved p j = d.reserved p j

/-- Another program and the preparation of the job may go on without leaving `I`. -/
structure OwnDirectories (path jobId : String) (I : Disk → Prop) : Prop where
  entry : ∀ t directory, I t → I (t.setEntry jobId directory)
  reserved : ∀ t job, I t → I (t.setReserved path jobId job)
  history : ∀ t history, I t → I { t with history }
  node : ∀ t p target node, I t → I (t.setNode p target node)

section Directories

variable {path jobId : String} {d t : Disk} {I : Disk → Prop}

@[simp] theorem Disk.setNode_hasJob (d : Disk) (p : String) (target : TargetPath)
    (node : Option Node) (name : String) : (d.setNode p target node).hasJob name = d.hasJob name := rfl

@[simp] theorem Disk.setReserved_hasJob (d : Disk) (p j : String) (job : Option ReservedJob)
    (name : String) : (d.setReserved p j job).hasJob name = d.hasJob name := rfl

@[simp] theorem Disk.setEntry_hasJob (d : Disk) (name other : String) (directory : JobDirectory) :
    (d.setEntry name directory).hasJob other = d.hasJob other := rfl

theorem Disk.setNode_reserved (d : Disk) (p q j : String) (target : TargetPath)
    (node : Option Node) : (d.setNode p target node).reserved q j = d.reserved q j := by
  by_cases hq : q = p
  · subst hq
    simp [Disk.reserved, Disk.setNode, Disk.setRoot]
  · simp [Disk.reserved, Disk.setNode, Disk.setRoot, update_of_ne hq]

theorem Disk.setReserved_reserved_of_ne {d : Disk} {p j q k : String} {job : Option ReservedJob}
    (h : ¬ (q = p ∧ k = j)) : (d.setReserved p j job).reserved q k = d.reserved q k := by
  by_cases hq : q = p
  · have hk : k ≠ j := fun hk => h ⟨hq, hk⟩
    subst hq
    simp [Disk.reserved, Disk.setReserved, Disk.setRoot, update_of_ne hk]
  · simp [Disk.reserved, Disk.setReserved, Disk.setRoot, update_of_ne hq]

theorem Disk.setEntry_directory_of_ne {d : Disk} {name other : String} {directory : JobDirectory}
    (h : other ≠ name) : (d.setEntry name directory).directory other = d.directory other := by
  simp [Disk.directory, Disk.setEntry, Disk.hasJob, update_of_ne h]

theorem Disk.OthersKept.refl : d.OthersKept path jobId d :=
  ⟨fun _ _ => rfl, fun _ _ => rfl, fun _ _ _ => rfl⟩

theorem Disk.OthersKept.trans {u : Disk} (h : d.OthersKept path jobId t)
    (h' : t.OthersKept path jobId u) : d.OthersKept path jobId u where
  hasJob name hname := (h'.hasJob name hname).trans (h.hasJob name hname)
  directory name hname := (h'.directory name hname).trans (h.directory name hname)
  reserved p j hne := (h'.reserved p j hne).trans (h.reserved p j hne)

theorem ownDirectories_othersKept (d : Disk) :
    OwnDirectories path jobId (fun t => d.OthersKept path jobId t) where
  entry _ _ h := ⟨h.hasJob,
    fun name hname => (Disk.setEntry_directory_of_ne hname).trans (h.directory name hname),
    h.reserved⟩
  reserved _ _ h := ⟨h.hasJob, h.directory,
    fun p j hne => (Disk.setReserved_reserved_of_ne hne).trans (h.reserved p j hne)⟩
  history _ _ h := ⟨h.hasJob, h.directory, h.reserved⟩
  node _ _ _ _ h := ⟨h.hasJob, h.directory,
    fun q j hne => (Disk.setNode_reserved _ _ _ _ _ _).trans (h.reserved q j hne)⟩

theorem Disk.SameDirectories.refl : d.SameDirectories d := ⟨fun _ => rfl, fun _ => rfl, fun _ _ => rfl⟩

theorem jobs_act (m : Intrusion) (t : Disk) :
    (Outside.act m t : Disk).jobs = t.jobs ∧ (Outside.act m t : Disk).entry = t.entry := by
  cases m with
  | write p target file =>
    simp only [Outside.act]
    split
    · exact ⟨rfl, rfl⟩
    · exact ⟨rfl, rfl⟩
    · split <;> exact ⟨rfl, rfl⟩
  | delete p target =>
    simp only [Outside.act]
    split <;> exact ⟨rfl, rfl⟩

theorem Disk.SameDirectories.act (h : d.SameDirectories t) (m : Intrusion) :
    d.SameDirectories (Outside.act m t) where
  hasJob name := by
    rw [← h.hasJob name]
    simp only [Disk.hasJob, (jobs_act m t).1]
  directory name := by
    have hjobs : (Outside.act m t : Disk).hasJob name = t.hasJob name := by
      simp only [Disk.hasJob, (jobs_act m t).1]
    rw [← h.directory name]
    simp only [Disk.directory, hjobs, (jobs_act m t).2]
  reserved p j := (reserved_act m t p j).trans (h.reserved p j)

theorem ownDirectories_hasJob (name : String) :
    OwnDirectories path jobId (fun t => t.hasJob name = true) where
  entry _ _ h := h
  reserved _ _ h := h
  history _ _ h := h
  node _ _ _ _ h := h

theorem OwnDirectories.and {J : Disk → Prop} (hI : OwnDirectories path jobId I)
    (hJ : OwnDirectories path jobId J) : OwnDirectories path jobId (fun t => I t ∧ J t) where
  entry t directory h := ⟨hI.entry t directory h.1, hJ.entry t directory h.2⟩
  reserved t job h := ⟨hI.reserved t job h.1, hJ.reserved t job h.2⟩
  history t history h := ⟨hI.history t history h.1, hJ.history t history h.2⟩
  node t p target node h := ⟨hI.node t p target node h.1, hJ.node t p target node h.2⟩

variable {A : Event Intrusion → Prop}

theorem OwnDirectories.stable (h : OwnDirectories path jobId I) : Stable A I := by
  intro m t _ ht
  cases m with
  | write p target file =>
    simp only [Outside.act]
    split
    · exact ht
    · exact ht
    · split
      · exact h.node _ _ _ _ (h.history t _ ht)
      · exact ht
  | delete p target =>
    simp only [Outside.act]
    split
    · exact h.node _ _ _ _ ht
    · exact ht

/-! ### What a preparation does there -/

theorem OwnDirectories.keeps_copyPayloads [Sha256] (h : OwnDirectories path jobId I)
    (staging : Staging) (files : List (FileEntry × Nat)) :
    Keeps A I (copyPayloads jobId staging files) := by
  induction files with
  | nil => exact Keeps.pure ()
  | cons file files ih =>
    refine Keeps.bind (Keeps.lift _) fun source => Keeps.bind ?_ fun _ =>
      Keeps.bind (Keeps.lift _) fun _ => ih
    refine Keeps.step h.stable (fun t ht => ?_) (fun n t ht => ?_) (fun c t ht => ht)
    · unfold Step.done
      simp only [storePayload]
      cases t.directory jobId with
      | none => exact ht
      | some directory => exact h.entry t _ ht
    · simp only [storePayload]
      cases t.directory jobId with
      | none => exact ht
      | some directory => exact h.entry t _ ht

theorem OwnDirectories.keeps_writeNewJournal (h : OwnDirectories path jobId I) (medium : Medium)
    (header : JournalHeader) :
    Keeps A I ((writeNewJournal medium jobId header).run : JobProg Unit) := by
  have hpart : ∀ n t, I t → I (writeNewJournal.writePart medium jobId header n t) := by
    intro n t ht
    unfold writeNewJournal.writePart
    cases t.directory jobId with
    | none => exact ht
    | some directory =>
      dsimp only
      split
      · exact ht
      split
      · exact h.history _ _ (h.entry t _ ht)
      · exact h.history _ _ (h.entry t _ ht)
  refine Keeps.step h.stable (fun t ht => ?_) hpart (fun c t ht => ?_)
  · unfold Step.done
    simp only [writeNewJournal]
    cases t.directory jobId with
    | none => exact ht
    | some directory =>
      cases hjournal : directory.journal with
      | some old => simpa only [hjournal] using ht
      | none =>
        simp only [hjournal]
        exact h.history _ _ (h.entry t _ ht)
  · cases c with
    | before => exact ht
    | within n => exact hpart n t ht
    | after => exact ht

theorem OwnDirectories.keeps_storePrepared (h : OwnDirectories path jobId I) (index : UInt32)
    (file : File) : Keeps A I ((storePrepared path jobId index file).run : JobProg Unit) := by
  refine Keeps.step h.stable (fun t ht => ?_) (fun n t ht => ?_) (fun c t ht => ht)
  · unfold Step.done
    simp only [storePrepared]
    cases t.reserved path jobId with
    | none => exact ht
    | some job =>
      dsimp only
      split <;> rename_i heq <;> split at heq
      · cases heq
      · cases heq
        exact h.reserved t _ ht
      · exact ht
      · cases heq
  · simp only [storePrepared]
    cases t.reserved path jobId with
    | none => exact ht
    | some job =>
      dsimp only
      split
      · exact ht
      · exact h.reserved t _ ht

end Directories

/-! ### The cleanup -/

section Cleanup

variable {A : Event Intrusion → Prop} {jobId : String} {d : Disk}

/-- The private directory goes last: while it is there the cleanup has not been completed. -/
theorem wp_localCleanupJob_found (root : RegisteredRoot) (hfound : d.hasJob jobId = true) :
    Wp A (localCleanupJob root jobId)
      (fun _ t => d.OthersKept root.canonicalPath jobId t ∧ t.hasJob jobId = false ∧
        t.reserved root.canonicalPath jobId = none)
      (fun _ t => t.hasJob jobId = true) (fun _ => True) d := by
  have hown : OwnDirectories root.canonicalPath jobId
      (fun t => d.OthersKept root.canonicalPath jobId t ∧ t.hasJob jobId = true) :=
    (ownDirectories_othersKept d).and (ownDirectories_hasJob jobId)
  have hstable : Stable A fun t => (d.OthersKept root.canonicalPath jobId t ∧ t.hasJob jobId = true) ∧
      t.reserved root.canonicalPath jobId = none := by
    intro m t hm ht
    refine ⟨hown.stable m t hm ht.1, ?_⟩
    rw [reserved_act]
    exact ht.2
  have hremove : ∀ t, (d.OthersKept root.canonicalPath jobId t ∧ t.hasJob jobId = true) ∧
      t.reserved root.canonicalPath jobId = none →
      Wp A (do if ← look (·.hasJob jobId) then (removeJob jobId).run : JobProg Unit)
        (fun _ t => d.OthersKept root.canonicalPath jobId t ∧ t.hasJob jobId = false ∧
          t.reserved root.canonicalPath jobId = none)
        (fun _ t => t.hasJob jobId = true) (fun _ => True) t := by
    intro t ht
    refine Wp.bind (Wp.look ?_)
    rw [if_pos ht.1.2]
    refine Wp.step_stable ht hstable fun u hu => ?_
    have hgone := private_removeJob_done u jobId
    constructor
    · intro _ u' heff
      cases heff
      refine ⟨⟨fun name hname => ?_, fun name hname => ?_, hu.1.1.reserved⟩,
        Disk.hasJob_withoutJob, hu.2⟩
      · exact (hgone.hasJob name hname).trans (hu.1.1.hasJob name hname)
      · rw [← hu.1.1.directory name hname]
        simp only [Disk.directory, hgone.hasJob name hname, hgone.entry name hname]
    · intro e heff
      cases heff
    · intro c _
      cases c with
      | before => exact hu.1.2
      | after => exact hu.1.2
      | within n =>
        simp only [removeJob, removeJob.removePart]
        cases u.directory jobId with
        | none => exact hu.1.2
        | some directory => exact hu.1.2
    · exact fun _ _ => trivial
  have hd : d.OthersKept root.canonicalPath jobId d ∧ d.hasJob jobId = true := ⟨.refl, hfound⟩
  unfold localCleanupJob
  refine Wp.bind (Wp.look ?_)
  cases hreserved : (d.reserved root.canonicalPath jobId).isSome with
  | false =>
    simp only [Bool.false_eq_true, if_false]
    exact Wp.bind (Wp.pure (hremove d ⟨hd, by simpa using hreserved⟩))
  | true =>
    simp only [if_true]
    refine Wp.bind (Wp.lift (fun _ _ => ?_) fun _ _ => hfound)
    refine Wp.bind (Wp.step_stable hd hown.stable fun u hu => ?_)
    constructor
    · intro _ u' heff
      cases heff
      refine hremove _ ⟨hown.reserved u none hu, ?_⟩
      simp [Disk.reserved, Disk.setReserved, Disk.setRoot]
    · intro e heff
      cases heff
    · intro c _
      cases c with
      | before => exact hu.2
      | after => exact hu.2
      | within n =>
        simp only [removeReserved, removeReserved.removePart]
        cases u.reserved root.canonicalPath jobId with
        | none => exact hu.2
        | some job => exact hu.2
    · exact fun _ _ => trivial

end Cleanup

section Prepare

variable [Unicode] [Sha256] {A : Event Intrusion → Prop} {I : Disk → Prop} {jobId : String}

omit [Unicode] in
theorem OwnDirectories.keeps_prepareTargets {root : RegisteredRoot}
    (h : OwnDirectories root.canonicalPath jobId I) (stamp : Stamp)
    (files : List (FileEntry × Nat)) : Keeps A I (prepareTargets stamp root jobId files) := by
  induction files with
  | nil => exact Keeps.pure ()
  | cons file files ih =>
    refine Keeps.bind (keeps_ensureReservedLeafDirectory h.stable
      fun t ht _ => h.reserved t _ ht) fun _ => Keeps.bind (Keeps.look _) fun payload => ?_
    cases payload with
    | none => exact Keeps.throw_bind _ _
    | some payload =>
      exact Keeps.bind (h.keeps_storePrepared _ _) fun _ => Keeps.bind (Keeps.lift _) fun _ => ih

theorem OwnDirectories.keeps_prepareJobContents {root : RegisteredRoot}
    (h : OwnDirectories root.canonicalPath jobId I) (manifest : VerifiedFileSet)
    (staging : Staging) (stamp : Stamp) (policy : Policy) :
    Keeps A I (prepareJobContents manifest root staging stamp policy jobId) := by
  refine Keeps.bind (h.keeps_copyPayloads _ _) fun _ => ?_
  refine Keeps.bind (keeps_inspectFiles _ _) fun files => ?_
  refine Keeps.bind (keeps_inspectRemovals _ _ _) fun removals => ?_
  refine Keeps.bind (h.keeps_writeNewJournal _ _) fun _ => ?_
  exact Keeps.bind (h.keeps_prepareTargets _ _) fun _ => Keeps.pure _

/-! ### A preparation that fails -/

/-- `prepare_file_set` up to the directory of the job. -/
def beginJob (manifest : VerifiedFileSet) (root : RegisteredRoot) (stagingIsAbsolute : Bool) :
    JobProg Unit := do
  inspect fun d => localVerifyRootIdentity d root
  lift (rejectIf (manifest.fileSet.productId ≠ root.productId)
    (.new .productMismatch "verified file set belongs to another registered product"))
  lift (rejectIf (!stagingIsAbsolute) (.new .stagingInvalid "staging directory must be absolute"))
  match declaredSize manifest.fileSet.files 0 with
  | none => throw (.new .insufficientSpace "declared payload size overflowed")
  | some required =>
    lift (ensureAvailableSpace required)
    createJobs.run
    (createJob (jobIdOf root manifest)
      (.new .transactionConflict "a transaction with this manifest already exists")).run

theorem prepareFileSet_eq (manifest : VerifiedFileSet) (root : RegisteredRoot) (absolute : Bool)
    (staging : Staging) (stamp : Stamp) (policy : Policy) :
    prepareFileSet manifest root absolute staging stamp policy = (do
      beginJob manifest root absolute
      createPayloads.run
      match ← attempt (prepareJobContents manifest root staging stamp policy
          (jobIdOf root manifest)) with
      | .ok header => pure { header, policy }
      | .error error =>
        let _ ← attempt (localCleanupJob root (jobIdOf root manifest))
        throw error) := by
  have hreject : ∀ (condition : Prop) [Decidable condition] (error : MaintenanceError)
      (rest : JobProg PreparedJob),
      (if condition then (do Faulty.throw error; rest) else rest) =
        (do lift (rejectIf condition error); rest) := by
    intro condition _ error rest
    by_cases h : condition <;> simp only [h, rejectIf] <;> rfl
  unfold prepareFileSet beginJob
  simp only [hreject, bind_assoc]
  cases declaredSize manifest.fileSet.files 0 with
  | none => simp only [Bool.decide_eq_true]; rfl
  | some required => simp only [bind_assoc, Bool.decide_eq_true] <;> rfl

omit [Sha256] in
theorem wp_beginJob (manifest : VerifiedFileSet) (root : RegisteredRoot) (absolute : Bool)
    (d : Disk) :
    Wp A (beginJob manifest root absolute)
      (fun _ t => (d.OthersKept root.canonicalPath (jobIdOf root manifest) t ∧
        t.reserved root.canonicalPath (jobIdOf root manifest) =
          d.reserved root.canonicalPath (jobIdOf root manifest)) ∧
        d.hasJob (jobIdOf root manifest) = false ∧ t.hasJob (jobIdOf root manifest) = true)
      (fun _ t => d.SameDirectories t) (fun _ => True) d := by
  have hsame : d.SameDirectories d := .refl
  unfold beginJob
  refine Wp.bind (Wp.inspect (fun _ _ => ?_) fun _ _ => hsame)
  refine Wp.bind (Wp.lift (fun _ _ => ?_) fun _ _ => hsame)
  refine Wp.bind (Wp.lift (fun _ _ => ?_) fun _ _ => hsame)
  cases declaredSize manifest.fileSet.files 0 with
  | none => exact Wp.throw hsame
  | some required =>
    refine Wp.bind (Wp.lift (fun _ _ => ?_) fun _ _ => hsame)
    have hjobs : Wp A (createJobs.run : JobProg Unit) (fun _ => d.SameDirectories)
        (fun _ => d.SameDirectories) (fun _ => True) d := by
      refine Wp.step_stable hsame (fun m t _ ht => ht.act m) fun t ht => ?_
      refine Step.Meets.whole .plain (fun _ u heff => ?_) (fun _ => ht) trivial
      cases heff
      refine ⟨?_, trivial⟩
      have hhas : ∀ name, ({ t with jobs := some (t.jobs.getD []) } : Disk).hasJob name =
          t.hasJob name := by
        intro name
        cases hjobs : t.jobs <;> simp [Disk.hasJob, hjobs]
      refine ⟨fun name => (hhas name).trans (ht.hasJob name), fun name => ?_, ht.reserved⟩
      rw [← ht.directory name]
      simp only [Disk.directory, hhas name]
    refine Wp.bind (hjobs.mono (fun _ t ht => ?_) (fun _ _ h => h) fun _ h => h)
    refine Wp.step_stable ht (fun m t _ ht => ht.act m) fun u hu => ?_
    refine Step.Meets.whole .plain (fun _ v heff => ?_) (fun _ => hu) trivial
    refine ⟨?_, trivial⟩
    simp only [createJob] at heff
    cases hlisted : u.jobs with
    | none => simp [hlisted] at heff
    | some names =>
      by_cases hmem : names.contains (jobIdOf root manifest)
      · simp only [hlisted, hmem, if_true, reduceCtorEq] at heff
      · simp only [hlisted, hmem, Bool.false_eq_true, if_false, Except.ok.injEq, Prod.mk.injEq,
          true_and] at heff
        subst heff
        have hothers : ∀ name, name ≠ jobIdOf root manifest →
            ({ u with jobs := some (names ++ [jobIdOf root manifest]) } : Disk).hasJob name =
              u.hasJob name := by
          intro name hname
          simp [Disk.hasJob, hlisted, hname]
        have hfresh : u.hasJob (jobIdOf root manifest) = false := by
          simpa [Disk.hasJob, hlisted] using hmem
        refine ⟨⟨⟨fun name hname => ?_, fun name hname => ?_, fun p j _ => hu.reserved p j⟩,
          hu.reserved _ _⟩, (hu.hasJob _).symm.trans hfresh, by
            rw [Disk.setEntry_hasJob]
            simp [Disk.hasJob]⟩
        · exact (hothers name hname).trans (hu.hasJob name)
        · rw [Disk.setEntry_directory_of_ne hname, ← hu.directory name]
          simp only [Disk.directory, hothers name hname]

/-- The preparation has failed and has taken its directories away again. -/
def Withdrawn (manifest : VerifiedFileSet) (root : RegisteredRoot) (staging : Staging)
    (stamp : Stamp) (policy : Policy) (d : Disk) (sch : Schedule Intrusion) : Prop :=
  ∃ d₁ sch₁ e d₂ sch₂, createPayloads.run d sch = (.ok (), d₁, sch₁) ∧
    prepareJobContents manifest root staging stamp policy (jobIdOf root manifest) d₁ sch₁
      = (.error e, d₂, sch₂) ∧
    (localCleanupJob root (jobIdOf root manifest) d₂ sch₂).1.isOk = true

/-- A failed preparation keeps the directories exactly if it ends before it has made one, or if
it withdraws and nothing was reserved for the job before. -/
theorem prepareFileSet_failed_iff {manifest : VerifiedFileSet} {root : RegisteredRoot}
    {absolute : Bool} {staging : Staging} {stamp : Stamp} {policy : Policy} {d t : Disk}
    {sch rest : Schedule Intrusion} {e : MaintenanceError}
    (h : prepareFileSet manifest root absolute staging stamp policy d sch = (.error e, t, rest)) :
    d.SameDirectories t ↔ ∀ d₁ sch₁, beginJob manifest root absolute d sch = (.ok (), d₁, sch₁) →
      Withdrawn manifest root staging stamp policy d₁ sch₁ ∧
        d.reserved root.canonicalPath (jobIdOf root manifest) = none := by
  have hbegin := wp_beginJob (A := fun _ => True) manifest root absolute d sch fun _ _ => trivial
  rw [prepareFileSet_eq, run_bind] at h
  revert h hbegin
  rcases beginJob manifest root absolute d sch with ⟨_ | e₁ | _, d₁, sch₁⟩
  · intro h hbegin
    obtain ⟨-, ⟨hothers, hreserved⟩, hfresh, hfound⟩ := hbegin
    have hown : OwnDirectories root.canonicalPath (jobIdOf root manifest)
        (fun t => d.OthersKept root.canonicalPath (jobIdOf root manifest) t ∧
          t.hasJob (jobIdOf root manifest) = true) :=
      (ownDirectories_othersKept d).and (ownDirectories_hasJob _)
    have hchanged : ∀ {u : Disk}, u.hasJob (jobIdOf root manifest) = true →
        ¬ d.SameDirectories u := by
      intro u hu hsame
      have hfalse := (hsame.hasJob (jobIdOf root manifest)).symm.trans hu
      rw [hfresh] at hfalse
      cases hfalse
    have hpayloads : Keeps (fun _ => True) (fun t =>
        d.OthersKept root.canonicalPath (jobIdOf root manifest) t ∧
          t.hasJob (jobIdOf root manifest) = true) (createPayloads.run : JobProg Unit) :=
      Keeps.step hown.stable (fun _ hu => hu) (fun _ _ hu => hu) (fun _ _ hu => hu)
    have hcontents : Keeps (fun _ => True) (fun t =>
        d.OthersKept root.canonicalPath (jobIdOf root manifest) t ∧
          t.hasJob (jobIdOf root manifest) = true)
        (prepareJobContents manifest root staging stamp policy (jobIdOf root manifest)) :=
      hown.keeps_prepareJobContents _ _ _ _
    have hkept := (hpayloads d₁ ⟨hothers, hfound⟩).anyEnd sch₁
    simp only [Prod.mk.injEq, true_and, and_imp, forall_eq', forall_apply_eq_imp_iff]
    simp only [run_bind] at h
    rcases hrun : (createPayloads.run : JobProg Unit) d₁ sch₁ with ⟨_ | e₂ | _, d₂, sch₂⟩
    · rw [hrun] at h hkept
      have hkept := (hcontents d₂ hkept).anyEnd sch₂
      simp only [attempt] at h
      rcases hrun' : prepareJobContents manifest root staging stamp policy (jobIdOf root manifest) d₂
        sch₂ with ⟨header | e₃ | _, d₃, sch₃⟩
      · simp [hrun', run_pure] at h
      · rw [hrun'] at hkept
        have hcleanup := wp_localCleanupJob_found (A := fun _ => True) root hkept.2 sch₃
          fun _ _ => trivial
        simp only [hrun', run_bind, attempt] at h
        rcases hrun'' : localCleanupJob root (jobIdOf root manifest) d₃ sch₃ with
          ⟨_ | e₄ | _, d₄, sch₄⟩
        · rw [hrun''] at h hcleanup
          obtain ⟨-, hothers', hgone, hnone⟩ := hcleanup
          simp only [run_throw, Prod.mk.injEq, Outcome.error.injEq] at h
          obtain ⟨-, rfl, -⟩ := h
          have hwithdrawn : Withdrawn manifest root staging stamp policy d₁ sch₁ :=
            ⟨d₂, sch₂, e₃, d₃, sch₃, hrun, hrun', by rw [hrun'']; rfl⟩
          simp only [hwithdrawn, true_and]
          constructor
          · intro hsame
            exact (hsame.reserved _ _).symm.trans hnone
          · intro hreservedNone
            have hothers := hkept.1.trans hothers'
            have hnothing : ∀ {u : Disk}, u.hasJob (jobIdOf root manifest) = false →
                u.directory (jobIdOf root manifest) = none := by
              intro u hu
              simp [Disk.directory, hu]
            refine ⟨fun name => ?_, fun name => ?_, fun p j => ?_⟩
            · by_cases hname : name = jobIdOf root manifest
              · rw [hname, hgone, hfresh]
              · exact hothers.hasJob name hname
            · by_cases hname : name = jobIdOf root manifest
              · rw [hname, hnothing hgone, hnothing hfresh]
              · exact hothers.directory name hname
            · by_cases hpair : p = root.canonicalPath ∧ j = jobIdOf root manifest
              · rw [hpair.1, hpair.2, hnone, hreservedNone]
              · exact hothers.reserved p j hpair
        · rw [hrun''] at h hcleanup
          simp only [run_throw, Prod.mk.injEq, Outcome.error.injEq] at h
          obtain ⟨-, rfl, -⟩ := h
          refine iff_of_false (hchanged hcleanup.2) ?_
          rintro ⟨⟨d₂', sch₂', e', d₃', sch₃', hpayload, hcontent, hok⟩, -⟩
          rw [hrun] at hpayload
          cases hpayload
          rw [hrun'] at hcontent
          cases hcontent
          rw [hrun''] at hok
          cases hok
        · simp [hrun''] at h
      · simp [hrun'] at h
    · rw [hrun] at h hkept
      simp only [Prod.mk.injEq, Outcome.error.injEq] at h
      obtain ⟨-, rfl, -⟩ := h
      refine iff_of_false (hchanged hkept.2) ?_
      rintro ⟨⟨d₂', sch₂', e', d₃, sch₃, hpayload, -⟩, -⟩
      rw [hrun] at hpayload
      simp at hpayload
    · simp [hrun] at h
  · intro h hbegin
    simp only [Prod.mk.injEq, Outcome.error.injEq] at h
    obtain ⟨-, rfl, -⟩ := h
    simpa using hbegin.2
  · intro h hbegin
    simp at h

/-- A preparation that succeeds has made its directories and has not withdrawn. -/
theorem prepareFileSet_ok {manifest : VerifiedFileSet} {root : RegisteredRoot}
    {absolute : Bool} {staging : Staging} {stamp : Stamp} {policy : Policy} {d t : Disk}
    {sch rest : Schedule Intrusion} {job : PreparedJob}
    (h : prepareFileSet manifest root absolute staging stamp policy d sch = (.ok job, t, rest)) :
    ¬ d.SameDirectories t ∧ ∃ d₁ sch₁, beginJob manifest root absolute d sch = (.ok (), d₁, sch₁) ∧
      ¬ Withdrawn manifest root staging stamp policy d₁ sch₁ := by
  have hbegin := wp_beginJob (A := fun _ => True) manifest root absolute d sch fun _ _ => trivial
  rw [prepareFileSet_eq, run_bind] at h
  revert h hbegin
  rcases beginJob manifest root absolute d sch with ⟨_ | e₁ | _, d₁, sch₁⟩
  · intro h hbegin
    obtain ⟨-, -, hfresh, hfound⟩ := hbegin
    have hown : OwnDirectories root.canonicalPath (jobIdOf root manifest)
        (fun t => t.hasJob (jobIdOf root manifest) = true) := ownDirectories_hasJob _
    have hpayloads : Keeps (fun _ => True) (fun t => t.hasJob (jobIdOf root manifest) = true)
        (createPayloads.run : JobProg Unit) :=
      Keeps.step hown.stable (fun _ hu => hu) (fun _ _ hu => hu) (fun _ _ hu => hu)
    have hkept := (hpayloads d₁ hfound).anyEnd sch₁
    simp only [run_bind] at h
    rcases hrun : (createPayloads.run : JobProg Unit) d₁ sch₁ with ⟨_ | e₂ | _, d₂, sch₂⟩
    · rw [hrun] at h hkept
      have hkept := (hown.keeps_prepareJobContents manifest staging stamp policy d₂ hkept).anyEnd sch₂
      simp only [attempt] at h
      rcases hrun' : prepareJobContents manifest root staging stamp policy (jobIdOf root manifest) d₂
        sch₂ with ⟨header | e₃ | _, d₃, sch₃⟩
      · rw [hrun'] at hkept
        simp only [hrun', run_pure, Prod.mk.injEq] at h
        obtain ⟨-, rfl, -⟩ := h
        refine ⟨fun hsame => ?_, d₁, sch₁, rfl, ?_⟩
        · have hfalse := (hsame.hasJob (jobIdOf root manifest)).symm.trans hkept
          rw [hfresh] at hfalse
          cases hfalse
        · rintro ⟨d₂', sch₂', e, d₃', sch₃', hpayload, hcontent, -⟩
          rw [hrun] at hpayload
          cases hpayload
          rw [hrun'] at hcontent
          cases hcontent
      · simp only [hrun', run_bind, attempt] at h
        rcases hrun'' : localCleanupJob root (jobIdOf root manifest) d₃ sch₃ with
          ⟨_ | e₄ | _, d₄, sch₄⟩ <;> simp [hrun'', run_throw] at h
      · simp [hrun'] at h
    · simp [hrun] at h
    · simp [hrun] at h
  · intro h _
    simp at h
  · intro h _
    simp at h

end Prepare

namespace Windows

section Request

variable [Externals]

/-! ### The request -/

/-- A `PrepareFileSet` request with all that happens until it is answered. -/
structure PrepareRequest where
  call : Call
  rootId : String
  manifestPath : String
  stagingPath : String
  spawned : Bool
  processing : Schedule Empty
  worker : PrepareCall
  preparation : Schedule Intrusion
  saving : Schedule Empty

def PrepareRequest.request (r : PrepareRequest) : Request :=
  .prepareFileSet r.rootId r.manifestPath r.stagingPath

/-- The worker of the active job has ended, and no request has noticed. -/
def EndedUnnoticed (s : ServiceState) (job : CompletedJob) : Prop :=
  ∃ active worker, s.activeJob = some active ∧ active.state = .committing worker ∧
    completedJob (s.channel worker) = some job

namespace Daemon

/-- The answer to the request and the state behind it. -/
def servePrepare (policy : Policy) (d : Daemon) (r : PrepareRequest) :
    Outcome MaintenanceError Response × Daemon :=
  match processRequest r.call r.request d.preparing.isSome d.service r.processing with
  | (.ok (.prepare work), s, _) =>
    if r.spawned then
      match runPrepare r.worker policy work d.preparations d.disk r.preparation with
      | (.ok outcome, disk, _) =>
        match finishPrepare outcome s r.saving with
        | (answer, t, _) =>
          (answer, { d with disk, preparations := d.preparations + 1 }.afterPrepare t answer)
      | (.error e, disk, _) =>
        (.error e, { d with
          service := s, disk, preparing := none, preparations := d.preparations + 1 })
      | (.crashed, disk, _) =>
        (.crashed, halt { d with service := s, disk, preparations := d.preparations + 1 })
    else
      (.error (.new .transactionState "prepare worker cannot be started"), { d with service := s })
  | (.ok (.respond response), s, _) => (.ok response, { d with service := s })
  | (.error e, s, _) => (.error e, { d with service := s })
  | (.crashed, s, _) => (.crashed, halt { d with service := s })

/-- Generations, active job, private jobs and reserved directories are as before. -/
structure Unchanged (d t : Daemon) : Prop where
  generations : t.service.generations = d.service.generations
  generationFile : t.service.generationFile = d.service.generationFile
  activeJob : t.service.activeJob = d.service.activeJob
  disk : d.disk.SameDirectories t.disk

/-- The request gets as far as to ask for room for its job. -/
def Reaches (d : Daemon) (r : PrepareRequest) : Prop :=
  d.preparing = none ∧ ∃ caller root, r.call.caller = .ok caller ∧
    d.service.roots.resolveAccessible r.rootId caller.sid = .ok root

/-- No commit has ended unnoticed, and no completed job has to make room. -/
structure JobStays (d : Daemon) (r : PrepareRequest) : Prop where
  unended : d.preparing = none → ∀ job, ¬ EndedUnnoticed d.service job
  uncompleted : d.Reaches r → ∀ active job, d.service.activeJob = some active →
    active.state ≠ .completed job

end Daemon

/-- What `run_prepare` asks for before `prepare_file_set`. -/
def workerAdmitted (call : PrepareCall) (work : PrepareWork) : Result Unit := do
  let stagingCaller ← call.stagingCaller
  rejectIf (stagingCaller.sid ≠ work.ownerSid)
    (.new .rootUnauthorized "caller token changed while opening staging handles")
  (if work.root.rootKind = .launcher then call.launcherVerified else .ok ())
  call.policyReady

/-- The preparation up to the first directory of the job. -/
def beginPrepare (call : PrepareCall) (work : PrepareWork) : JobProg Unit := do
  lift (workerAdmitted call work)
  beginJob work.manifest work.root (isAbsolute work.stagingPath.toList)

/-- The preparation ends in front of the directory of its job, or it fails behind it, takes its
directories away and had found nothing reserved for the job. -/
def LeavesNothing (policy : Policy) (d : Disk) (r : PrepareRequest) (work : PrepareWork) : Prop :=
  ∀ d₁ sch₁, beginPrepare r.worker work d r.preparation = (.ok (), d₁, sch₁) →
    Withdrawn work.manifest work.root r.worker.staging r.worker.stamp policy d₁ sch₁ ∧
      d.reserved work.root.canonicalPath (jobIdOf work.root work.manifest) = none

/-! ### The job of the service -/

/-- The service behind the dispatch of the request. -/
def noticed (r : PrepareRequest) (preparing : Bool) (s : ServiceState) : ServiceState :=
  if preparing then s
  else
    match r.call.caller with
    | .error _ => refreshActiveJob s
    | .ok caller =>
      match s.roots.resolveAccessible r.rootId caller.sid with
      | .error _ => refreshActiveJob s
      | .ok _ => dropCompleted (refreshActiveJob s)

theorem keeps_prepareRequest (call : Call) (caller : CallerIdentity) (root : RegisteredRoot)
    (stagingPath : String) (s : ServiceState) :
    Wp (fun _ => True) (prepareRequest call caller root stagingPath)
      (fun _ t => t = dropCompleted s) (fun _ t => t = dropCompleted s)
      (fun t => t = dropCompleted s) s := by
  refine Wp.bind (Wp.assign ?_)
  have hkeeps : ∀ {p : ServiceProg PrepareWork}, Keeps (fun _ => True) (fun t => t = dropCompleted s) p →
      Wp (fun _ => True) p (fun _ t => t = dropCompleted s) (fun _ t => t = dropCompleted s)
        (fun t => t = dropCompleted s) (dropCompleted s) := fun h => h _ rfl
  refine hkeeps ?_
  exact Keeps.bind (Keeps.look _) fun _ => Keeps.bind (Keeps.lift _) fun _ =>
    Keeps.bind (Keeps.lift _) fun _ => Keeps.bind (Keeps.lift _) fun _ =>
      Keeps.bind (Keeps.lift _) fun _ => Keeps.bind (Keeps.lift _) fun _ =>
        Keeps.bind (Keeps.look _) fun _ => Keeps.bind (Keeps.lift _) fun _ =>
          Keeps.bind (Keeps.lift _) fun _ => Keeps.pure _

theorem processRequest_noticed (r : PrepareRequest) (preparing : Bool) (s : ServiceState)
    (sch : Schedule Empty) :
    (processRequest r.call r.request preparing s sch).2.1 = noticed r preparing s := by
  have hroots := (sameBut_refresh s).roots
  refine Wp.anyEnd (I := fun t => t = noticed r preparing s) ?_ sch
  unfold processRequest
  cases preparing with
  | true =>
    refine Wp.bind (Wp.lift (fun _ h => ?_) fun _ _ => rfl)
    simp [PrepareRequest.request, requestKind, rejectIf] at h
  | false =>
    refine Wp.bind (Wp.lift (fun _ _ => Wp.bind (Wp.assign (Wp.bind (Wp.lift ?_ ?_)))) fun e h => ?_)
    · intro caller hcaller
      refine Wp.bind (Wp.look (Wp.bind (Wp.lift ?_ ?_)))
      · intro authorization hauthorized
        obtain ⟨root, hroot, hauthorized⟩ := Result.bind_eq_ok.mp hauthorized
        obtain rfl := Except.ok.inj hauthorized
        have hnoticed : noticed r false s = dropCompleted (refreshActiveJob s) := by
          simp only [id, hroots] at hroot
          simp [noticed, hcaller, hroot]
        rw [hnoticed]
        exact Wp.bind ((keeps_prepareRequest _ _ _ _ _).mono (fun _ _ ht => Wp.pure ht)
          (fun _ _ ht => ht) (fun _ ht => ht))
      · intro e hrefused
        have hroot : ∃ e, s.roots.resolveAccessible r.rootId caller.sid = .error e := by
          simp only [authorizeRequest, PrepareRequest.request, id, hroots] at hrefused
          cases hroot : s.roots.resolveAccessible r.rootId caller.sid with
          | error e => exact ⟨e, rfl⟩
          | ok root =>
            rw [hroot] at hrefused
            cases hrefused
        obtain ⟨e, hroot⟩ := hroot
        simp [noticed, hcaller, hroot]
    · intro e hcaller
      simp [noticed, hcaller]
    · simp [rejectIf] at h

theorem refresh_cases (s : ServiceState) :
    (refreshActiveJob s = s ∧ ∀ job, ¬ EndedUnnoticed s job) ∨
    ∃ (active : ActiveJob) (job : CompletedJob), EndedUnnoticed s job ∧
      refreshActiveJob s = s.withJob (some { active with state := .completed job }) := by
  unfold refreshActiveJob
  cases hactive : s.activeJob with
  | none => simp [EndedUnnoticed, hactive]
  | some active =>
    cases hstate : active.state with
    | prepared job => simp [EndedUnnoticed, hactive, hstate]
    | completed job => simp [EndedUnnoticed, hactive, hstate]
    | committing worker =>
      cases hjob : completedJob (s.channel worker) with
      | none => simp [EndedUnnoticed, hactive, hstate, hjob]
      | some job => exact .inr ⟨active, job, ⟨active, worker, hactive, hstate, hjob⟩, by simp [hstate, hjob]⟩

theorem refresh_activeJob_eq {s : ServiceState} :
    (refreshActiveJob s).activeJob = s.activeJob ↔ ∀ job, ¬ EndedUnnoticed s job := by
  obtain ⟨hsame, hnone⟩ | ⟨active, job, hended, hrefresh⟩ := refresh_cases s
  · simp [hsame, hnone]
  · refine iff_of_false (fun hsame => ?_) fun hnone => hnone job hended
    obtain ⟨active', worker, hactive, hstate, -⟩ := hended
    rw [hrefresh, hactive] at hsame
    obtain rfl := Option.some.inj hsame
    cases hstate

theorem drop_activeJob_eq {s : ServiceState} :
    (dropCompleted s).activeJob = s.activeJob ↔ ∀ active job, s.activeJob = some active →
      active.state ≠ .completed job := by
  unfold dropCompleted
  split
  · rename_i active job hactive
    refine iff_of_false (fun hsame => ?_) (fun hnone => hnone _ _ hactive rfl)
    cases hsame.trans hactive
  · rename_i hother
    refine iff_of_true rfl fun active job hactive hstate => ?_
    obtain ⟨jobId, ownerSid, serial, state⟩ := active
    cases hstate
    exact hother _ _ _ _ hactive

theorem noticed_activeJob_eq {d : Daemon} {r : PrepareRequest} :
    (noticed r d.preparing.isSome d.service).activeJob = d.service.activeJob ↔ d.JobStays r := by
  have hrefused (h : ¬ d.Reaches r) : d.JobStays r ↔
      (d.preparing = none → ∀ job, ¬ EndedUnnoticed d.service job) :=
    ⟨fun hstays => hstays.unended, fun hunended => ⟨hunended, fun hreaches => (h hreaches).elim⟩⟩
  cases hpreparing : d.preparing with
  | some inFlight => simp [noticed, hrefused, Daemon.Reaches, hpreparing]
  | none =>
    cases hcaller : r.call.caller with
    | error e =>
      simp [noticed, hrefused, Daemon.Reaches, hpreparing, hcaller, refresh_activeJob_eq]
    | ok caller =>
      cases hroot : d.service.roots.resolveAccessible r.rootId caller.sid with
      | error e =>
        simp [noticed, hrefused, Daemon.Reaches, hpreparing, hcaller, hroot, refresh_activeJob_eq]
      | ok root =>
        have hreaches : d.Reaches r := ⟨hpreparing, caller, root, hcaller, hroot⟩
        simp only [noticed, Option.isSome_none, Bool.false_eq_true, if_false, hcaller, hroot]
        obtain ⟨hsame, hnone⟩ | ⟨active, job, hended, hrefresh⟩ := refresh_cases d.service
        · rw [hsame, drop_activeJob_eq]
          exact ⟨fun hdrop => ⟨fun _ => hnone, fun _ => hdrop⟩,
            fun hstays => hstays.uncompleted hreaches⟩
        · refine iff_of_false (fun hdrop => ?_) fun hstays => hstays.unended hpreparing job hended
          obtain ⟨active', worker, hactive, -⟩ := hended
          rw [hrefresh, hactive] at hdrop
          simp [dropCompleted, ServiceState.withJob] at hdrop

theorem noticed_same (r : PrepareRequest) (preparing : Bool) (s : ServiceState) :
    SameBut s (noticed r preparing s) := by
  unfold noticed
  split
  · exact .refl s
  · split
    · exact sameBut_refresh s
    · split
      · exact sameBut_refresh s
      · exact (sameBut_refresh s).drop

/-! ### The end of the request -/

theorem runPrepare_eq (call : PrepareCall) (policy : Policy) (work : PrepareWork) (serial : Nat) :
    runPrepare call policy work serial = (do
      lift (workerAdmitted call work)
      let prepared ← prepareFileSet work.manifest work.root (isAbsolute work.stagingPath.toList)
        call.staging call.stamp policy
      pure { prepared, manifest := work.manifest, root := work.root, ownerSid := work.ownerSid,
             serial }) := by
  simp only [runPrepare, workerAdmitted, lift_bind, bind_assoc]

theorem runPrepare_failed_iff {policy : Policy} {r : PrepareRequest} {work : PrepareWork}
    {serial : Nat} {d t : Disk} {rest : Schedule Intrusion} {e : MaintenanceError}
    (h : runPrepare r.worker policy work serial d r.preparation = (.error e, t, rest)) :
    d.SameDirectories t ↔ LeavesNothing policy d r work := by
  rw [runPrepare_eq, run_bind] at h
  unfold LeavesNothing beginPrepare
  cases hadmitted : workerAdmitted r.worker work with
  | error e' =>
    simp only [hadmitted, run_lift_error, Prod.mk.injEq] at h
    obtain ⟨-, rfl, -⟩ := h
    simp [run_bind, run_lift_error, Disk.SameDirectories.refl]
  | ok _ =>
    simp only [hadmitted, run_lift_ok, run_bind] at h ⊢
    rcases hrun : prepareFileSet work.manifest work.root (isAbsolute work.stagingPath.toList)
      r.worker.staging r.worker.stamp policy d r.preparation with ⟨job | e' | _, u, rest'⟩
    · simp [hrun, run_pure] at h
    · simp only [hrun, Prod.mk.injEq] at h
      obtain ⟨-, rfl, -⟩ := h
      exact prepareFileSet_failed_iff hrun
    · simp [hrun] at h

theorem runPrepare_ok {policy : Policy} {r : PrepareRequest} {work : PrepareWork} {serial : Nat}
    {d t : Disk} {rest : Schedule Intrusion} {outcome : PreparedOutcome}
    (h : runPrepare r.worker policy work serial d r.preparation = (.ok outcome, t, rest)) :
    ¬ d.SameDirectories t ∧ ¬ LeavesNothing policy d r work := by
  rw [runPrepare_eq, run_bind] at h
  unfold LeavesNothing beginPrepare
  cases hadmitted : workerAdmitted r.worker work with
  | error e' => simp [hadmitted, run_lift_error] at h
  | ok _ =>
    simp only [hadmitted, run_lift_ok, run_bind] at h ⊢
    rcases hrun : prepareFileSet work.manifest work.root (isAbsolute work.stagingPath.toList)
      r.worker.staging r.worker.stamp policy d r.preparation with ⟨job | e' | _, u, rest'⟩
    · simp only [hrun, run_pure, Prod.mk.injEq] at h
      obtain ⟨-, rfl, -⟩ := h
      obtain ⟨hchanged, d₁, sch₁, hbegun, hkept⟩ := prepareFileSet_ok hrun
      exact ⟨hchanged, fun hnothing => hkept (hnothing d₁ sch₁ hbegun).1⟩
    · simp [hrun] at h
    · simp [hrun] at h

namespace Daemon

/-- While another job is prepared the request is turned away. -/
theorem servePrepare_busy {policy : Policy} {d : Daemon} {r : PrepareRequest}
    (hpreparing : d.preparing.isSome = true) :
    d.servePrepare policy r =
      (.error (.new .serviceBusy "another maintenance job is being prepared"), d) := by
  simp [servePrepare, hpreparing, processRequest, PrepareRequest.request, requestKind, rejectIf,
    run_bind, run_lift_error]

/-- The request is served in three steps of the service: it is taken, its worker ends, and the
service wakes to answer. -/
theorem servePrepare_steps {policy : Policy} {d t : Daemon} {r : PrepareRequest}
    {answer : Outcome MaintenanceError Response} (h : d.servePrepare policy r = (answer, t))
    (hrunning : d.running = true) (hfree : d.preparing = none) (halive : answer ≠ .crashed) :
    t = ((d.step policy (.request r.call r.request r.spawned r.processing)).step policy
      (.prepareEnds r.worker r.preparation)).step policy (.wake r.saving) := by
  unfold servePrepare at h
  simp only [step, hrunning, if_true, serveRequest]
  rcases hrun : processRequest r.call r.request d.preparing.isSome d.service r.processing with
    ⟨⟨response | work⟩ | e | _, s, rest⟩
  · simp only [hrun, Prod.mk.injEq] at h
    simp [afterRequest, endPrepare, serveWake, hfree, hrunning, ← h.2]
  · simp only [hrun] at h
    cases hspawned : r.spawned with
    | false =>
      simp only [hspawned, Bool.false_eq_true, if_false, Prod.mk.injEq] at h
      simp [afterRequest, endPrepare, serveWake, hfree, hrunning, ← h.2]
    | true =>
      simp only [hspawned, if_true] at h
      rcases hprepare : runPrepare r.worker policy work d.preparations d.disk r.preparation with
        ⟨outcome | e | _, disk, rest'⟩
      · simp only [hprepare, Prod.mk.injEq] at h
        obtain ⟨rfl, rfl⟩ := h
        rcases hfinish : finishPrepare outcome s r.saving with ⟨answer, u, rest''⟩
        cases answer <;>
          simp [afterRequest, endPrepare, serveWake, hrunning, hprepare, Channel.deliver, hfinish,
            afterPrepare, halt]
      · simp only [hprepare, Prod.mk.injEq] at h
        obtain ⟨-, rfl⟩ := h
        simp [afterRequest, endPrepare, serveWake, hrunning, hprepare, Channel.deliver]
      · simp only [hprepare, Prod.mk.injEq] at h
        exact (halive h.1.symm).elim
  · simp only [hrun, Prod.mk.injEq] at h
    simp [afterRequest, endPrepare, serveWake, hfree, hrunning, ← h.2]
  · simp only [hrun, Prod.mk.injEq] at h
    exact (halive h.1.symm).elim

/-- A request that is answered with an error keeps what it should exactly if the active job is not
touched and the preparation leaves nothing; an error behind a finished preparation never does. -/
theorem servePrepare_failed_iff {policy : Policy} {d t : Daemon} {r : PrepareRequest}
    {e : MaintenanceError} (h : d.servePrepare policy r = (.error e, t)) :
    d.Unchanged t ↔ d.JobStays r ∧ ∀ work s rest,
      processRequest r.call r.request d.preparing.isSome d.service r.processing =
        (.ok (.prepare work), s, rest) → r.spawned = true → LeavesNothing policy d.disk r work := by
  have hnoticed := processRequest_noticed r d.preparing.isSome d.service r.processing
  have hsame := noticed_same r d.preparing.isSome d.service
  rw [← noticed_activeJob_eq]
  unfold servePrepare at h
  have hunchanged : ∀ {t : Daemon}, t.service = noticed r d.preparing.isSome d.service →
      (d.Unchanged t ↔ (noticed r d.preparing.isSome d.service).activeJob = d.service.activeJob ∧
        d.disk.SameDirectories t.disk) := by
    intro t hservice
    constructor
    · exact fun hkept => ⟨hservice ▸ hkept.activeJob, hkept.disk⟩
    · intro hkept
      rw [← hservice] at hsame hkept
      exact ⟨hsame.generations, hsame.generationFile, hkept.1, hkept.2⟩
  rcases hrun : processRequest r.call r.request d.preparing.isSome d.service r.processing with
    ⟨⟨response | work⟩ | e' | _, s, rest⟩
  · simp [hrun] at h
  · simp only [hrun] at h hnoticed
    have hwork : ∀ (P : PrepareWork → Prop), (∀ work' s' rest',
        ((.ok (.prepare work), s, rest) : Faulty.Result ServiceState MaintenanceError Empty Dispatch) =
            (.ok (.prepare work'), s', rest') →
          r.spawned = true → P work') ↔ (r.spawned = true → P work) := by
      intro P
      constructor
      · exact fun hall => hall work s rest rfl
      · intro hone work' s' rest' heq
        cases heq
        exact hone
    rw [hwork]
    cases hspawned : r.spawned with
    | false =>
      simp only [hspawned, Bool.false_eq_true, if_false, Prod.mk.injEq] at h
      obtain ⟨-, rfl⟩ := h
      rw [hunchanged hnoticed]
      simp [Disk.SameDirectories.refl]
    | true =>
      simp only [hspawned, if_true] at h
      rcases hprepare : runPrepare r.worker policy work d.preparations d.disk r.preparation with
        ⟨outcome | e' | _, disk, rest'⟩
      · obtain ⟨hchanged, hkept⟩ := runPrepare_ok hprepare
        simp only [hprepare, Prod.mk.injEq] at h
        obtain ⟨hanswer, rfl⟩ := h
        refine iff_of_false (fun hsame => hchanged ?_) fun hnothing => hkept (hnothing.2 rfl)
        have hdisk := hsame.disk
        rw [hanswer] at hdisk
        exact hdisk
      · simp only [hprepare, Prod.mk.injEq] at h
        obtain ⟨-, rfl⟩ := h
        rw [hunchanged hnoticed, runPrepare_failed_iff hprepare]
        simp
      · simp [hprepare] at h
  · simp only [hrun, Prod.mk.injEq] at h hnoticed
    obtain ⟨-, rfl⟩ := h
    rw [hunchanged hnoticed]
    simp [Disk.SameDirectories.refl]
  · simp [hrun] at h

end Daemon

end Request

/-! ### A generation that cannot be saved -/

section Unsaved

attribute [local instance] releaseExternals

/-- Everything is answered well until the generations are saved. -/
def releaseRequest (saving : Schedule Empty) : PrepareRequest where
  call := releaseCall
  rootId := "games"
  manifestPath := ""
  stagingPath := "C:\\Staging"
  spawned := true
  processing := []
  worker := releasePreparation
  preparation := []
  saving := saving

noncomputable def releaseRegistered : Daemon :=
  beforeRelease.after quietPolicy [
    .start [] (.ok ()) [] [],
    .request releaseCall (.registerRoot "games" "launcher" .launcher "") true []]

noncomputable def unsavedRelease : Outcome MaintenanceError Response × Daemon :=
  releaseRegistered.servePrepare quietPolicy (releaseRequest [.fail .before])

theorem unsavedRelease_error : ∃ e t, unsavedRelease = (.error e, t) := by
  have herror : unsavedRelease.1.isError = true := by decide +kernel
  rcases hrun : unsavedRelease with ⟨_ | e | _, t⟩
  · simp [hrun, Outcome.isError] at herror
  · exact ⟨e, t, rfl⟩
  · simp [hrun, Outcome.isError] at herror

theorem servePrepare_failed_iff_unsaved : ∃ e t, unsavedRelease = (.error e, t) ∧
    (releaseRegistered.Unchanged t ↔
      releaseRegistered.JobStays (releaseRequest [.fail .before]) ∧ ∀ work s rest,
        processRequest releaseCall (releaseRequest [.fail .before]).request
            releaseRegistered.preparing.isSome releaseRegistered.service [] =
          (.ok (.prepare work), s, rest) → true = true →
            LeavesNothing quietPolicy releaseRegistered.disk (releaseRequest [.fail .before]) work) := by
  obtain ⟨e, t, hrun⟩ := unsavedRelease_error
  exact ⟨e, t, hrun, Daemon.servePrepare_failed_iff hrun⟩

/-- The save of the generations fails: they are raised in memory, the directory of the job stays,
and the same request is refused from then on. -/
theorem unsaved_generation_blocks_retry :
    (¬ ∀ (d t : Daemon), d.Fresh → Daemon.Runs quietPolicy (fun _ _ => True) d t →
      t.running = true → ∀ r e u, t.servePrepare quietPolicy r = (.error e, u) → t.Unchanged u) ∧
    ((unsavedRelease.2.servePrepare quietPolicy (releaseRequest [])).1 matches
      .error ⟨.transactionConflict, _, _⟩) = true := by
  refine ⟨fun h => ?_, by decide +kernel⟩
  have hfresh : beforeRelease.Fresh := Daemon.fresh_fresh rfl
  have hruns : Daemon.Runs quietPolicy (fun _ _ => True) beforeRelease releaseRegistered :=
    Daemon.after_runs ⟨trivial, trivial, trivial⟩
  have hrunning : releaseRegistered.running = true := by decide +kernel
  have hbefore : releaseRegistered.disk.hasJob releaseJobId = false := by decide +kernel
  have hafter : unsavedRelease.2.disk.hasJob releaseJobId = true := by decide +kernel
  obtain ⟨e, t, hrun⟩ := unsavedRelease_error
  have hunchanged := h beforeRelease releaseRegistered hfresh hruns hrunning _ e t hrun
  rw [hrun, hunchanged.disk.hasJob, hbefore] at hafter
  cases hafter

end Unsaved

end Windows

end Se7en

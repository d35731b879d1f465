import Se7enService.RecoveryFrame
import Se7enService.PrepareSpec
set_option autoImplicit false

/-! A backup is only found below a root whose job is still known: its journal says that a
commit began. A new job therefore starts without backups. -/

namespace Se7en
open Faulty

/-- The job has no backup anywhere. -/
def Bare (name : String) (d : Disk) : Prop := ∀ path index, d.backup path name index = none

/-- Where a job has a backup its journal tells of a commit at this root. -/
def Anchored (name : String) (d : Disk) : Prop :=
  ∀ path index, d.backup path name index ≠ none → ∃ header more,
    header.root.canonicalPath = path ∧ header.jobId = name ∧
      d.journal name = some (journalBytes header [.prepared, .committing] ++ more)

def Tidy (d : Disk) : Prop := ∀ name, Anchored name d

/-- The commit of this job has begun, and its backups are below its root. -/
structure Begun (header : JournalHeader) (d : Disk) : Prop where
  journal : ∃ more,
    d.journal header.jobId = some (journalBytes header [.prepared, .committing] ++ more)
  elsewhere : ∀ path, path ≠ header.root.canonicalPath → ∀ index,
    d.backup path header.jobId index = none

/-- A commit may have begun. -/
def Kept (header : JournalHeader) (d : Disk) : Prop := Begun header d ∨ Bare header.jobId d

section Anchors

variable {name path : String} {header : JournalHeader} {entries : List JournalEntry}
  {entry : JournalEntry} {d d' : Disk}

theorem Bare.anchored (h : Bare name d) : Anchored name d :=
  fun path index hne => absurd (h path index) hne

theorem Anchored.bare (h : Anchored name d) (hnone : d.journal name = none) : Bare name d := by
  intro path index
  by_contra hne
  obtain ⟨header, more, -, -, hmore⟩ := h path index hne
  rw [hnone] at hmore
  cases hmore

theorem Begun.anchored (h : Begun header d) : Anchored header.jobId d := by
  intro path index hne
  obtain ⟨more, hmore⟩ := h.journal
  refine ⟨header, more, ?_, rfl, hmore⟩
  by_contra hpath
  exact hne (h.elsewhere path (Ne.symm hpath) index)

theorem Kept.anchored (h : Kept header d) : Anchored header.jobId d := by
  obtain h | h := h
  · exact h.anchored
  · exact h.anchored

theorem Anchored.congr (h : Anchored name d)
    (hbackup : ∀ path index, d'.backup path name index = d.backup path name index)
    (hjournal : d'.journal name = d.journal name) : Anchored name d' := by
  intro path index hne
  rw [hbackup] at hne
  rw [hjournal]
  exact h path index hne

/-- Another job does not touch it. -/
theorem Anchored.frame {jobId : String} (h : Anchored name d) (hname : name ≠ jobId)
    (hf : Frame path jobId entries d d') : Anchored name d' := by
  have hdirectory := hf.directory hname
  refine h.congr (fun q index => ?_) (by simp [Disk.journal, hdirectory])
  by_cases hq : q = path
  · simp [Disk.backup, hq, hf.reserved name hname]
  · simp [Disk.backup, Disk.reserved, hf.root q hq]

theorem Tidy.frame {jobId : String} (h : Tidy d) (hf : Frame path jobId entries d d')
    (hjob : Anchored jobId d') : Tidy d' := by
  intro name
  by_cases hname : name = jobId
  · exact hname ▸ hjob
  · exact (h name).frame hname hf

theorem Bare.of_root (h : Bare name d) (hroot : d'.root = d.root) : Bare name d' := by
  intro path index
  have hnone := h path index
  simpa [Disk.backup, Disk.reserved, hroot] using hnone

theorem Bare.setReserved (h : Bare name d) {job : Option ReservedJob}
    (hjob : ∀ index, (job >>= (·.backup index)) = none) : Bare name (d.setReserved path name job) := by
  intro q index
  by_cases hq : q = path
  · subst hq
    simpa [Disk.backup] using hjob index
  · have hnone := h q index
    simpa [Disk.backup, Disk.reserved, d.root_setReserved_of_ne job hq] using hnone

theorem Begun.moved (h : Begun header d)
    (hm : Moved header.root.canonicalPath header.jobId entries d d') : Begun header d' where
  journal := by
    have hdirectory := hm.directory header.jobId
    simpa [Disk.journal, hdirectory] using h.journal
  elsewhere path hpath index := by
    have hnone := h.elsewhere path hpath index
    simpa [Disk.backup, Disk.reserved, hm.root path hpath] using hnone

theorem Bare.rollbackChange (h : Bare name d) (hc : RollbackChange path name entry d d') :
    Bare name d' := by
  cases hc with
  | directory hnone hp =>
    intro q index
    simpa [Disk.withDirectory] using h q index
  | delete hfile _ =>
    intro q index
    simpa [Disk.deleted] using h q index
  | restore horiginal hjob hfile =>
    have hnone := h path entry.transactionIndex
    rw [Disk.backup_of_reserved hjob, hfile] at hnone
    cases hnone

theorem Begun.appended {state : JournalState} {May : Nat → Prop} (h : Begun header d)
    (hc : AppendChange header.jobId state May d d') : Begun header d' where
  journal := by
    obtain ⟨more, hmore⟩ := h.journal
    obtain ⟨old, n, hold, -, hnew⟩ := hc.journal
    obtain rfl := Option.some.inj (hmore.symm.trans hold)
    exact ⟨more ++ (recordLine state).take n, by rw [hnew, List.append_assoc]⟩
  elsewhere path hpath index := by
    have hnone := h.elsewhere path hpath index
    simpa [Disk.backup, Disk.reserved, hc.private.root] using hnone

theorem Kept.appended {state : JournalState} {May : Nat → Prop} (h : Kept header d)
    (hc : AppendChange header.jobId state May d d') : Kept header d' :=
  h.imp (fun hb => hb.appended hc) fun hb => hb.of_root hc.private.root

theorem Begun.setReserved (h : Begun header d) (job : Option ReservedJob) :
    Begun header (d.setReserved header.root.canonicalPath header.jobId job) where
  journal := h.journal
  elsewhere path hpath index := by
    have hnone := h.elsewhere path hpath index
    simpa [Disk.backup, Disk.reserved, d.root_setReserved_of_ne job hpath] using hnone

theorem Kept.removePart (h : Kept header d) (n : Nat) :
    Kept header (removeReserved.removePart header.root.canonicalPath header.jobId n d) := by
  unfold removeReserved.removePart
  split
  · exact h
  rename_i job hjob
  refine h.imp (fun hb => hb.setReserved _) fun hb => hb.setReserved fun index => ?_
  have hnone := hb header.root.canonicalPath index
  rw [Disk.backup_of_reserved hjob] at hnone
  simp [hnone]

theorem Kept.bare (h : Kept header d)
    (hnone : d.reserved header.root.canonicalPath header.jobId = none) : Bare header.jobId d := by
  obtain h | h := h
  · intro path index
    by_cases hpath : path = header.root.canonicalPath
    · simp [Disk.backup, hpath, hnone]
    · exact h.elsewhere path hpath index
  · exact h

theorem Kept.removeReserved (h : Kept header d) :
    Bare header.jobId (d.setReserved header.root.canonicalPath header.jobId none) := by
  have hkept : Kept header (d.setReserved header.root.canonicalPath header.jobId none) :=
    h.imp (fun hb => hb.setReserved none) fun hb => hb.setReserved fun _ => rfl
  exact hkept.bare (d.reserved_setReserved_self none)

theorem Bare.disposable : Disposable name (Bare name) where
  done t ht := ht.of_root (private_removeJob_done t name).root
  part t n ht := ht.of_root (private_removeJob_part t name n).root

end Anchors

/-! ### Committing -/

section Commit

variable {prepared : PreparedJob} {d : Disk}

theorem kept_rollbackEntries (hpolicy : prepared.policy.usesAtomicReplacement = false) :
    Keeps Quiet (Kept prepared.header) (rollbackEntries prepared) := by
  refine keeps_rollbackEntries hpolicy Stable.quiet fun entry he t t' ht hc => ?_
  obtain ht | ht := ht
  · exact .inl (ht.moved (Moved.rollbackChange Moved.refl he hc))
  · exact .inr (ht.rollbackChange hc)

theorem begun_applyEntries (hpolicy : prepared.policy.usesAtomicReplacement = false) :
    Keeps Quiet (Begun prepared.header) (applyEntries prepared prepared.header.entries) :=
  keeps_applyEntries hpolicy Stable.quiet fun _ he _ _ ht hc =>
    ht.moved (Moved.applyChange Moved.refl he hc)

theorem kept_cleanupPreparedJob : Keeps Quiet (Kept prepared.header) (cleanupPreparedJob prepared) := by
  intro t ht
  have hcleanup := wp_cleanupPreparedJob_of (J := Bare prepared.header.jobId) prepared
    Stable.quiet Stable.quiet (fun _ h hnone => h.bare hnone) (fun _ h => h.removeReserved)
    (fun _ n h => h.removePart n) Bare.disposable ht
  exact hcleanup.mono (fun _ _ h => .inr h) (fun _ _ h => h.elim id .inr) (fun _ h => h.elim id .inr)

theorem kept_appendState (state : JournalState) :
    Keeps Quiet (Kept prepared.header) (appendState prepared state) :=
  keeps_appendRecord Stable.quiet fun _ _ ht hc => ht.appended hc

theorem kept_rollBack (hpolicy : prepared.policy.usesAtomicReplacement = false)
    (error : MaintenanceError) (incomplete : String) :
    Keeps Quiet (Kept prepared.header) (rollBack prepared error incomplete) := by
  refine Keeps.bind (Keeps.attempt (kept_appendState _)) fun _ => ?_
  refine Keeps.bind (Keeps.attempt (Keeps.bind (kept_rollbackEntries hpolicy) fun _ =>
    kept_cleanupPreparedJob)) fun outcome => ?_
  cases outcome <;> exact Keeps.throw _

/-- A commit starts without backups, and makes some only behind its Committing record. -/
theorem wp_kept_commitFileSet (hpolicy : prepared.policy.usesAtomicReplacement = false)
    (hjournal : d.journal prepared.header.jobId = some (newJournal prepared.header))
    (hbare : Bare prepared.header.jobId d) :
    Wp Quiet (commitFileSet prepared) (fun _ => Kept prepared.header)
      (fun _ => Kept prepared.header) (Kept prepared.header) d := by
  refine Wp.bind (Wp.inspect (fun _ _ => ?_) (fun _ _ => .inr hbare))
  refine Wp.bind ((keeps_verifyOriginalSnapshots (I := fun t => t = d) _ d rfl).mono ?_
    (fun _ t h => h ▸ .inr hbare) (fun t h => h ▸ .inr hbare))
  rintro _ d rfl
  have happended : ∀ {May t}, AppendChange prepared.header.jobId .committing May d t →
      Bare prepared.header.jobId t := fun hc => hbare.of_root hc.private.root
  refine Wp.bind (wp_appendRecord.mono ?_ ?_ ?_)
  · intro _ t hc
    have hbegun : Begun prepared.header t := by
      obtain ⟨old, n, hold, rfl, hnew⟩ := hc.journal
      obtain rfl := Option.some.inj (hjournal.symm.trans hold)
      refine ⟨⟨[], ?_⟩, fun path _ index => happended hc path index⟩
      rw [hnew, newJournal_eq, List.take_length, List.append_nil]
      exact congrArg some (journalBytes_append _ _ _).symm
    refine Wp.bind (Wp.attempt ((begun_applyEntries hpolicy t hbegun).mono ?_ ?_ ?_))
    · intro _ t₁ hbegun₁
      refine Wp.bind (Wp.attempt ((kept_appendState .committed t₁ (.inl hbegun₁)).mono ?_ ?_ ?_))
      · intro _ t₂ hkept
        refine Wp.bind (Wp.attempt ((kept_cleanupPreparedJob t₂ hkept).mono ?_ ?_ (fun _ h => h)))
        · exact fun _ _ h => Wp.pure h
        · exact fun _ _ h => Wp.pure h
      · exact fun _ t₂ hkept => kept_rollBack hpolicy _ _ t₂ hkept
      · exact fun _ h => h
    · exact fun _ t₁ hbegun₁ => kept_rollBack hpolicy _ _ t₁ (.inl hbegun₁)
    · exact fun _ h => .inl h
  · rintro _ t (rfl | hc)
    · exact .inr hbare
    · exact .inr (happended hc)
  · rintro t (rfl | hc)
    · exact .inr hbare
    · exact .inr (happended hc)

end Commit

/-! ### Recovering -/

section Recovery

variable [Unicode] [Deserialize JournalHeader] [Deserialize JournalStateRecord]
  {name : String} {header : JournalHeader} {d : Disk}

theorem Begun.of_read {header' : JournalHeader} {bytes : Bytes} {state : JournalState}
    (h : Begun header' d) (hbytes : d.journal header'.jobId = some bytes)
    (hread : readJournal bytes = .ok (header, state)) : header = header' := by
  obtain ⟨more, hmore⟩ := h.journal
  obtain rfl := Option.some.inj (hmore.symm.trans hbytes)
  rw [journalBytes, List.append_assoc] at hread
  exact readJournal_line hread

/-- What the backups of a readable job are. -/
theorem Anchored.kept {bytes : Bytes} {state : JournalState} (h : Anchored header.jobId d)
    (hbytes : d.journal header.jobId = some bytes)
    (hread : readJournal bytes = .ok (header, state)) : Kept header d := by
  have hown : ∀ path index, d.backup path header.jobId index ≠ none →
      header.root.canonicalPath = path ∧ ∃ more,
        d.journal header.jobId = some (journalBytes header [.prepared, .committing] ++ more) := by
    intro path index hne
    obtain ⟨header', more, hpath, -, hmore⟩ := h path index hne
    obtain rfl := Option.some.inj (hmore.symm.trans hbytes)
    rw [journalBytes, List.append_assoc] at hread
    obtain rfl := readJournal_line hread
    exact ⟨hpath, more, hmore⟩
  by_cases hbare : Bare header.jobId d
  · exact .inr hbare
  simp only [Bare, not_forall] at hbare
  obtain ⟨path, index, hne⟩ := hbare
  refine .inl ⟨(hown path index hne).2, fun q hq i => ?_⟩
  by_contra hbackup
  exact hq (hown q i hbackup).1.symm

theorem Kept.bare_of_prepared [LawfulDeserialize JournalStateRecord] {bytes : Bytes}
    (h : Kept header d) (hbytes : d.journal header.jobId = some bytes)
    (hread : readJournal bytes = .ok (header, .prepared)) : Bare header.jobId d := by
  obtain h | h := h
  · obtain ⟨more, hmore⟩ := h.journal
    obtain rfl := Option.some.inj (hmore.symm.trans hbytes)
    exact absurd rfl (readJournal_started hread)
  · exact h

omit [Unicode] [Deserialize JournalHeader] [Deserialize JournalStateRecord] in
theorem kept_recoverState (prepared : PreparedJob)
    (hpolicy : prepared.policy.usesAtomicReplacement = false) (state : JournalState)
    (result : RecoveryResult) : Keeps Quiet (Kept prepared.header) (recoverState prepared state result) := by
  have hfinished : ∀ result', Keeps Quiet (Kept prepared.header)
      (do cleanupPreparedJob prepared; pure result' : JobProg RecoveryResult) :=
    fun _ => Keeps.bind kept_cleanupPreparedJob fun _ => Keeps.pure _
  have hrollback : ∀ result', Keeps Quiet (Kept prepared.header)
      (do rollbackEntries prepared; cleanupPreparedJob prepared; pure result' :
        JobProg RecoveryResult) :=
    fun _ => Keeps.bind (kept_rollbackEntries hpolicy) fun _ => hfinished _
  cases state with
  | prepared => exact hfinished _
  | committing => exact Keeps.bind (kept_appendState _) fun _ => hrollback _
  | rollingBack => exact hrollback _
  | committed => exact hfinished _

theorem anchored_recoverDirectory [LawfulDeserialize JournalStateRecord] {policy : Policy}
    (hpolicy : policy.usesAtomicReplacement = false) (result : RecoveryResult) :
    Keeps Quiet (Anchored name) (recoverDirectory policy name result) := by
  intro d hd
  refine Wp.bind (Wp.look ?_)
  cases hdirectory : d.directory name with
  | none => exact Wp.throw hd
  | some directory =>
    cases hjournal : directory.journal with
    | none =>
      simp only [hjournal]
      have hbare := hd.bare (by simp [Disk.journal, hdirectory, hjournal])
      have hremove := keeps_removeJob Stable.quiet Bare.disposable d hbare
      exact Wp.bind (hremove.mono (fun _ _ h => Wp.pure h.anchored) (fun _ _ h => h.anchored)
        (fun _ h => h.anchored))
    | some bytes =>
      simp only [hjournal]
      refine Wp.bind (Wp.lift (fun read hread => ?_) (fun _ _ => hd))
      obtain ⟨header, state⟩ := read
      have hbytes : d.journal name = some bytes := by simp [Disk.journal, hdirectory, hjournal]
      by_cases hname : name = header.jobId
      · subst hname
        simp only [ne_eq, not_true_eq_false, if_false]
        have hkept := hd.kept hbytes hread
        refine Wp.bind (Wp.look ?_)
        split
        · refine Wp.bind (Wp.look ?_)
          split
          · rename_i hmissing
            obtain rfl : state = .prepared := by
              by_contra hne
              simp [hne] at hmissing
            have hcleanup := keeps_cleanupPrivatePreparedJob { header, policy }
              Stable.quiet Bare.disposable d (hkept.bare_of_prepared hbytes hread)
            exact Wp.bind (hcleanup.mono (fun _ _ h => Wp.pure h.anchored) (fun _ _ h => h.anchored)
              (fun _ h => h.anchored))
          · exact Wp.throw hd
        · exact (kept_recoverState { header, policy } hpolicy state result d hkept).mono
            (fun _ _ h => h.anchored) (fun _ _ h => h.anchored) (fun _ h => h.anchored)
      · simp only [ne_eq, hname, not_false_eq_true, if_true]
        exact Wp.bind (Wp.throw hd)

theorem tidy_recoverDirectory [LawfulDeserialize JournalStateRecord] {policy : Policy}
    (hpolicy : policy.usesAtomicReplacement = false) (name : String) (result : RecoveryResult) :
    Keeps Quiet Tidy (recoverDirectory policy name result) := by
  intro d hd
  have hrecovered := wp_recoverDirectory hpolicy name result d
  have hanchored := anchored_recoverDirectory hpolicy result d (hd name)
  have htidy : ∀ t, Anchored name t ∧ Recovered name d t → Tidy t := by
    rintro t ⟨ht, hr⟩
    obtain ⟨path, entries, hframe, -⟩ := hr.frame
    exact hd.frame hframe ht
  exact (hanchored.and hrecovered).mono (fun _ t h => htidy t h) (fun _ t h => htidy t h) htidy

theorem tidy_recoverIncomplete [LawfulDeserialize JournalStateRecord] {policy : Policy}
    (hpolicy : policy.usesAtomicReplacement = false) :
    Keeps Quiet Tidy (recoverIncompleteWithPolicy policy) :=
  keeps_recoverIncomplete fun name result => tidy_recoverDirectory hpolicy name result

end Recovery

/-! ### Preparing -/

/-- A job that is still being prepared: no backups, and a journal that says no more than that. -/
structure Starting (name : String) (d : Disk) : Prop where
  bare : Bare name d
  journal : d.journal name = none ∨ ∃ header n, d.journal name = some ((newJournal header).take n)

section Prepare

variable [Unicode] [Sha256] {name path : String} {d d' : Disk}

omit [Unicode] [Sha256] in
theorem Starting.of_dropped (h : Starting name d) (hroot : d'.root = d.root)
    (hd : Dropped name d d') : Starting name d' where
  bare := h.bare.of_root hroot
  journal := by
    obtain hsame | hnone := hd
    · rw [hsame]
      exact h.journal
    · exact .inl hnone

omit [Unicode] [Sha256] in
theorem Starting.setReserved (h : Starting name d) {job : Option ReservedJob}
    (hjob : ∀ index, (job >>= (·.backup index)) = none) :
    Starting name (d.setReserved path name job) :=
  ⟨h.bare.setReserved hjob, h.journal⟩

omit [Unicode] [Sha256] in
theorem Starting.disposable : Disposable name (Starting name) where
  done t ht := ht.of_dropped (private_removeJob_done t name).root (.inr Disk.journal_withoutJob)
  part t n ht := ht.of_dropped (private_removeJob_part t name n).root (dropped_removeJob_part n)

omit [Unicode] [Sha256] in
theorem Starting.removePart (h : Starting name d) (n : Nat) :
    Starting name (removeReserved.removePart path name n d) := by
  unfold removeReserved.removePart
  split
  · exact h
  rename_i job hjob
  refine h.setReserved fun index => ?_
  have hnone := h.bare path index
  rw [Disk.backup_of_reserved hjob] at hnone
  simp [hnone]

omit [Unicode] [Sha256] in
theorem Starting.setEntry (h : Starting name d) {directory directory' : JobDirectory}
    (hdirectory : d.directory name = some directory)
    (hjournal : directory'.journal = directory.journal) : Starting name (d.setEntry name directory') := by
  refine h.of_dropped rfl (.inl ?_)
  rw [Disk.journal_setEntry _ (Disk.hasJob_of_directory hdirectory), hjournal]
  simp [Disk.journal, hdirectory]

omit [Unicode] in
theorem starting_copyPayloads (staging : Staging) (files : List (FileEntry × Nat)) :
    Keeps Quiet (Starting name) (copyPayloads name staging files) := by
  induction files with
  | nil => exact Keeps.pure ()
  | cons file files ih =>
    refine Keeps.bind (Keeps.lift _) fun source => ?_
    refine Keeps.bind ?_ fun _ => Keeps.bind (Keeps.lift _) fun _ => ih
    refine Keeps.step_quiet (fun t ht => ?_) (fun n t ht => ?_) (fun _ _ ht => ht)
    · simp only [Step.done, storePayload]
      cases hdirectory : t.directory name with
      | none => exact ht
      | some directory => exact ht.setEntry hdirectory rfl
    · simp only [storePayload]
      cases hdirectory : t.directory name with
      | none => exact ht
      | some directory => exact ht.setEntry hdirectory rfl

omit [Unicode] [Sha256] in
theorem Starting.started (h : Starting name d) {directory : JobDirectory} {header : JournalHeader}
    (hdirectory : d.directory name = some directory) (n : Nat) :
    Starting name (d.setEntry name { directory with journal := some ((newJournal header).take n) }) where
  bare := h.bare.of_root rfl
  journal := .inr ⟨header, n, Disk.journal_setEntry { directory with
    journal := some ((newJournal header).take n) } (Disk.hasJob_of_directory hdirectory)⟩

omit [Unicode] [Sha256] in
theorem Starting.of_history (h : Starting name d) (history : History) :
    Starting name { d with history } :=
  ⟨h.bare, h.journal⟩

omit [Unicode] [Sha256] in
theorem starting_writeNewJournal (medium : Medium) (header : JournalHeader) :
    Keeps Quiet (Starting name) ((writeNewJournal medium name header).run : JobProg Unit) := by
  have hpart : ∀ n t, Starting name t →
      Starting name (writeNewJournal.writePart medium name header n t) := by
    intro n t ht
    unfold writeNewJournal.writePart
    split
    · exact ht
    rename_i directory hdirectory
    split
    · exact ht
    · dsimp only
      split
      · exact (ht.started hdirectory n).of_history _
      · exact (ht.started hdirectory n).of_history _
  refine Keeps.step_quiet (fun t ht => ?_) hpart (fun c t ht => ?_)
  · refine Step.done_of_ok (fun t _ t' ht heff => ?_) ht
    simp only [writeNewJournal] at heff
    split at heff
    · cases heff
    rename_i directory hdirectory
    split at heff
    · cases heff
    cases heff
    have hstarted := @Starting.started _ _ ht directory header hdirectory (newJournal header).length
    rw [List.take_length] at hstarted
    exact hstarted.of_history _
  · cases c with
    | before => exact ht
    | within n => exact hpart n t ht
    | after => exact ht

omit [Unicode] [Sha256] in
theorem starting_storePrepared (index : UInt32) (file : File) :
    Keeps Quiet (Starting name) ((storePrepared path name index file).run : JobProg Unit) := by
  have hset : ∀ (t : Disk) (job : ReservedJob) (prepared : UInt32 → Option File), Starting name t →
      t.reserved path name = some job →
      Starting name (t.setReserved path name (some { job with prepared })) := by
    intro t job prepared ht hjob
    refine ht.setReserved fun i => ?_
    have hnone := ht.bare path i
    rw [Disk.backup_of_reserved hjob] at hnone
    exact hnone
  refine Keeps.step_quiet (fun t ht => ?_) (fun n t ht => ?_) (fun _ _ ht => ht)
  · refine Step.done_of_ok (fun t _ t' ht heff => ?_) ht
    simp only [storePrepared] at heff
    split at heff
    · cases heff
    rename_i job hjob
    split at heff
    · cases heff
    cases heff
    exact hset t job _ ht hjob
  · simp only [storePrepared]
    split
    · exact ht
    rename_i job hjob
    split
    · exact ht
    · exact hset t job _ ht hjob

omit [Unicode] in
theorem starting_prepareTargets (stamp : Stamp) (root : RegisteredRoot)
    (files : List (FileEntry × Nat)) :
    Keeps Quiet (Starting name) (prepareTargets stamp root name files) := by
  induction files with
  | nil => exact Keeps.pure ()
  | cons file files ih =>
    refine Keeps.bind (keeps_ensureReservedLeafDirectory Stable.quiet fun _ ht _ =>
      ht.setReserved fun _ => rfl) fun _ => ?_
    refine Keeps.bind (Keeps.look _) fun payload => ?_
    cases payload with
    | none => exact Keeps.throw_bind _ _
    | some payload =>
      refine Keeps.bind (starting_storePrepared _ _) fun _ => ?_
      exact Keeps.bind (Keeps.lift _) fun _ => ih

theorem starting_prepareJobContents (manifest : VerifiedFileSet) (root : RegisteredRoot)
    (staging : Staging) (stamp : Stamp) (policy : Policy) :
    Keeps Quiet (Starting name) (prepareJobContents manifest root staging stamp policy name) := by
  refine Keeps.bind (starting_copyPayloads _ _) fun _ => ?_
  refine Keeps.bind (keeps_inspectFiles _ _) fun files => ?_
  refine Keeps.bind (keeps_inspectRemovals _ _ _) fun removals => ?_
  refine Keeps.bind (starting_writeNewJournal _ _) fun _ => ?_
  exact Keeps.bind (starting_prepareTargets _ _ _) fun _ => Keeps.pure _

/-- The private directories and the roots are as they were. -/
structure Disk.Same (d d' : Disk) : Prop where
  root : d'.root = d.root
  directory : ∀ name, d'.directory name = d.directory name

/-- Either the job was refused because its directory is there, or it is only being prepared. -/
theorem wp_starting_prepareFileSet (manifest : VerifiedFileSet) (root : RegisteredRoot)
    (absolute : Bool) (staging : Staging) (stamp : Stamp) (policy : Policy)
    (hd : Anchored (jobIdOf root manifest) d) :
    Wp Quiet (prepareFileSet manifest root absolute staging stamp policy)
      (fun _ => Starting (jobIdOf root manifest))
      (fun _ t => Starting (jobIdOf root manifest) t ∨ d.Same t)
      (fun t => Starting (jobIdOf root manifest) t ∨ d.Same t) d := by
  have hself : d.Same d := ⟨rfl, fun _ => rfl⟩
  refine Wp.bind (Wp.inspect (fun _ _ => ?_) (fun _ _ => .inr hself))
  by_cases hproduct : manifest.fileSet.productId = root.productId
  · simp only [hproduct, ne_eq, not_true_eq_false, if_false]
    cases absolute with
    | false => exact Wp.bind (Wp.throw (.inr hself))
    | true =>
      simp only [Bool.not_true, Bool.false_eq_true, if_false]
      cases declaredSize manifest.fileSet.files 0 with
      | none => exact Wp.throw (.inr hself)
      | some required =>
        refine Wp.bind (Wp.lift (fun _ _ => ?_) (fun _ _ => .inr hself))
        have hjobs : Wp Quiet (createJobs.run : JobProg Unit) (fun _ => d.Same)
            (fun _ => d.Same) d.Same d := by
          refine Wp.step_quiet (Step.Meets.whole .plain (fun _ t heff => ?_) (fun _ => hself) hself)
          cases heff
          have hsame : d.Same { d with jobs := some (d.jobs.getD []) } := by
            refine ⟨rfl, fun name => ?_⟩
            cases hjobs : d.jobs <;> simp [Disk.directory, Disk.hasJob, hjobs]
          exact ⟨hsame, hsame⟩
        refine Wp.bind (hjobs.mono ?_ (fun _ _ h => .inr h) (fun _ h => .inr h))
        intro _ t ht
        have hcreate : Wp Quiet ((createJob (jobIdOf root manifest)
            (.new .transactionConflict "a transaction with this manifest already exists")).run :
              JobProg Unit) (fun _ => Starting (jobIdOf root manifest)) (fun _ t' => t' = t)
            (fun t' => Starting (jobIdOf root manifest) t' ∨ t' = t) t := by
          refine Wp.step_quiet (Step.Meets.whole .plain (fun _ t' heff => ?_) (fun _ => rfl) (.inr rfl))
          suffices Starting (jobIdOf root manifest) t' from ⟨this, .inl this⟩
          simp only [createJob] at heff
          cases hjobs : t.jobs with
          | none => simp [hjobs] at heff
          | some names =>
            by_cases hmem : names.contains (jobIdOf root manifest)
            · simp only [hjobs, hmem, if_true, reduceCtorEq] at heff
            simp only [hjobs, hmem, Bool.false_eq_true, if_false, Except.ok.injEq, Prod.mk.injEq,
              true_and] at heff
            subst heff
            have hnone : d.journal (jobIdOf root manifest) = none := by
              have hmem' : jobIdOf root manifest ∉ names := by simpa using hmem
              have hmissing : t.directory (jobIdOf root manifest) = none := by
                simp [Disk.directory, Disk.hasJob, hjobs, hmem']
              rw [ht.directory] at hmissing
              simp [Disk.journal, hmissing]
            refine ⟨(hd.bare hnone).of_root ht.root, .inl ?_⟩
            exact Disk.journal_setEntry _ (by simp [Disk.hasJob])
        refine Wp.bind (hcreate.mono ?_ (fun _ _ h => .inr (h ▸ ht)) fun t' h =>
          h.imp id fun heq : t' = t => heq ▸ ht)
        intro _ t₁ ht₁
        refine Wp.bind (Wp.step_quiet (.of_ok .plain rfl ?_ (.inl ht₁) (.inl ht₁) (.inl ht₁)))
        refine Wp.bind (Wp.attempt ((starting_prepareJobContents _ _ _ _ _ t₁ ht₁).mono ?_ ?_
          (fun _ h => .inl h)))
        · exact fun header t₂ ht₂ => Wp.pure ht₂
        · intro e t₂ ht₂
          have hcleanup := Keeps.attempt (keeps_localCleanupJob root (jobIdOf root manifest)
            Stable.quiet (fun _ h => h.setReserved fun _ => rfl)
            (fun _ n h => h.removePart n) Starting.disposable) t₂ ht₂
          exact Wp.bind (hcleanup.mono (fun _ _ h => Wp.throw (.inl h)) (fun _ _ h => .inl h)
            (fun _ h => .inl h))
  · simp only [hproduct, ne_eq, not_false_eq_true, if_true]
    exact Wp.bind (Wp.throw (.inr hself))

end Prepare

end Se7en

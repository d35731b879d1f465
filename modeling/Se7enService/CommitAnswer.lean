import Se7enService.FileSetAtomicity
import Se7enService.ProcessRequest
set_option autoImplicit false

/-! What the answer of `commit_file_set` tells about the targets, however its appends end. -/

namespace Se7en
open Faulty

/-! ### Behind the journal -/

section Files

variable {plan : Plan} {d : Disk}

/-- Nothing is left of the job. -/
structure Plan.Swept (plan : Plan) (d : Disk) : Prop where
  hasJob : d.hasJob plan.jobId = false
  reserved : d.reserved plan.path plan.jobId = none

theorem Plan.Settled.disposable (c : Bool) : Disposable plan.jobId (plan.Settled c) where
  done t ht := ht.of_root (private_removeJob_done t plan.jobId).root
  part t n ht := ht.of_root (private_removeJob_part t plan.jobId n).root

theorem wp_removeJob_swept (h : d.reserved plan.path plan.jobId = none) :
    Wp Quiet (do if ← look (·.hasJob plan.jobId) then (removeJob plan.jobId).run : JobProg Unit)
      (fun _ t => plan.Swept t) (fun _ _ => True) (fun _ => True) d := by
  refine Wp.bind (Wp.look ?_)
  cases hjob : d.hasJob plan.jobId with
  | false =>
    simp only [Bool.false_eq_true, if_false]
    exact Wp.pure ⟨hjob, h⟩
  | true =>
    simp only [if_true]
    refine Wp.step_quiet ⟨?_, fun _ _ => trivial, fun _ _ => trivial, fun _ _ => trivial⟩
    intro _ t ht
    cases ht
    exact ⟨Disk.hasJob_withoutJob, h⟩

theorem wp_cleanup_swept : Wp Quiet (cleanupPreparedJob plan.job) (fun _ t => plan.Swept t)
    (fun _ _ => True) (fun _ => True) d := by
  refine Wp.runMutation (fun _ => trivial) trivial ?_
  refine Wp.mono ?_ (fun _ _ h => ⟨h, fun _ => trivial, trivial⟩) (fun _ _ h => h) (fun _ h => h)
  refine Wp.bind (Wp.look ?_)
  cases hreserved : d.reserved plan.job.header.root.canonicalPath plan.job.header.jobId with
  | none =>
    simp only [Option.isSome_none, Bool.false_eq_true, if_false]
    exact wp_removeJob_swept hreserved
  | some job =>
    simp only [Option.isSome_some, if_true]
    refine Wp.bind (Wp.lift (fun _ _ => ?_) (fun _ _ => trivial))
    refine Wp.bind (Wp.step_quiet ⟨?_, fun _ _ => trivial, fun _ _ => trivial, fun _ _ => trivial⟩)
    intro _ t ht
    cases ht
    exact wp_removeJob_swept (by simp [Plan.path, Plan.jobId])

/-- A cleanup leaves the targets alone, however it ends. -/
theorem wp_cleanup_settled {c : Bool} (hset : plan.Settled c d) :
    Wp Quiet (cleanupPreparedJob plan.job) (fun _ t => plan.Settled c t ∧ plan.Swept t)
      (fun _ => plan.Settled c) (plan.Settled c) d := by
  have hkeeps : Keeps Quiet (plan.Settled c) (cleanupPreparedJob plan.job) :=
    keeps_cleanupPreparedJob Stable.quiet (fun _ ht => ht.removeReserved)
      (fun _ n ht => ht.removePart n) (Plan.Settled.disposable c)
  exact ((hkeeps d hset).and wp_cleanup_swept).mono (fun _ _ h => h) (fun _ _ h => h.1)
    (fun _ h => h.1)

theorem wp_rollback_settled (hs : plan.Sound) (hd : plan.AllUndoable d) :
    Wp Quiet (rollbackEntries plan.job) (fun _ => plan.Settled false) (fun _ _ => True)
      (fun _ => True) d := by
  refine Wp.bind (Wp.inspect (fun _ _ => ?_) (fun _ _ => trivial))
  have hsub : plan.entries.reverse ⊆ plan.entries := List.reverse_subset.mpr (List.Subset.refl _)
  refine (wp_rollbackReversed hs hsub (List.nodup_reverse.mpr hs.nodup) hd).mono ?_
    (fun _ _ _ => trivial) (fun _ _ => trivial)
  rintro _ t ⟨-, hdone⟩ entry he
  exact hdone entry (List.mem_reverse.mpr he)

theorem wp_append_root {job : PreparedJob} (state : JournalState) :
    Wp Quiet (appendState job state) (fun _ t => t.root = d.root) (fun _ t => t.root = d.root)
      (fun _ => True) d := by
  refine wp_appendRecord.mono (fun _ _ h => h.private.root) ?_ (fun _ _ => trivial)
  rintro _ t (rfl | h)
  · rfl
  · exact h.private.root

/-- An error behind a rollback that was not complete says so. -/
theorem wp_rollBack_answer (hs : plan.Sound) (hd : plan.AllUndoable d) (error : MaintenanceError)
    (incomplete : String) :
    Wp Quiet (rollBack plan.job error incomplete) (fun _ _ => False)
      (fun e t => e.code ≠ .recoveryIncomplete → plan.Settled false t ∧ plan.Swept t)
      (fun _ => True) d := by
  refine wp_rollBack_of (wp_append_root .rollingBack) fun t hroot => ?_
  have hundone : Wp Quiet (do rollbackEntries plan.job; cleanupPreparedJob plan.job)
      (fun _ u => plan.Settled false u ∧ plan.Swept u) (fun _ _ => True) (fun _ => True) t := by
    refine Wp.bind ((wp_rollback_settled hs (hd.of_root hroot)).mono ?_ (fun _ _ h => h)
      (fun _ h => h))
    intro _ u hset
    exact (wp_cleanup_settled hset).mono (fun _ _ h => h) (fun _ _ _ => trivial)
      (fun _ _ => trivial)
  exact hundone.mono (fun _ _ h _ => h) (fun _ _ _ hcode => absurd rfl hcode) (fun _ h => h)

/-! ### The commit -/

/-- The part of `commit_file_set` up to the `Committing` record. -/
def startCommit (prepared : PreparedJob) : JobProg Unit := do
  inspect fun d => localVerifyRootIdentity d prepared.header.root
  verifyOriginalSnapshots prepared prepared.header.entries
  appendState prepared .committing

/-- The part behind it. -/
def finishCommit (prepared : PreparedJob) : JobProg CommitResult := do
  match ← attempt (applyEntries prepared prepared.header.entries) with
  | .error commitError =>
    rollBack prepared commitError "commit failed and rollback must be resumed by recovery"
  | .ok () =>
    match ← attempt (appendState prepared .committed) with
    | .error _ =>
      rollBack prepared (.new .transactionIo "committed journal state could not be persisted")
        "journal commit failed and rollback must be resumed by recovery"
    | .ok () =>
      let cleanup ← attempt (cleanupPreparedJob prepared)
      pure {
        jobId := prepared.header.jobId
        generation := prepared.header.generation
        cleanupPending := match cleanup with
          | .ok () => false
          | .error _ => true }

theorem commitFileSet_eq (prepared : PreparedJob) :
    commitFileSet prepared = startCommit prepared >>= fun _ => finishCommit prepared := by
  unfold commitFileSet startCommit finishCommit
  rw [bind_assoc]
  exact bind_congr fun _ => (bind_assoc _ _ _).symm

theorem wp_finishCommit (hs : plan.Sound)
    (hready : ∀ entry ∈ plan.entries, plan.Ready entry (plan.view entry d)) :
    Wp Quiet (finishCommit plan.job) (fun _ => plan.Settled true)
      (fun e t => e.code ≠ .recoveryIncomplete → plan.Settled false t ∧ plan.Swept t)
      (fun _ => True) d := by
  have hsettled : plan.Settled false d := fun entry he => (hready entry he).1
  have hloop := wp_applyEntries hs (List.Subset.refl _) hs.nodup hsettled.allUndoable hready
  have hundo : ∀ (error : MaintenanceError) (incomplete : String) (t : Disk), plan.AllUndoable t →
      Wp Quiet (rollBack plan.job error incomplete) (fun _ => plan.Settled true)
        (fun e t => e.code ≠ .recoveryIncomplete → plan.Settled false t ∧ plan.Swept t)
        (fun _ => True) t :=
    fun error incomplete t ht => (wp_rollBack_answer hs ht error incomplete).mono
      (fun _ _ h => h.elim) (fun _ _ h => h) (fun _ h => h)
  refine Wp.bind (Wp.attempt (hloop.mono ?_ (fun _ t ht => hundo _ _ t ht) (fun _ _ => trivial)))
  rintro _ t ⟨hundoable, happlied⟩
  have hnew : plan.Settled true t := fun entry he => (happlied entry he).1
  refine Wp.bind (Wp.attempt ((wp_append_root .committed).mono ?_ ?_ (fun _ h => h)))
  · intro _ u hroot
    refine Wp.bind (Wp.attempt ((wp_cleanup_settled (hnew.of_root hroot)).mono ?_ ?_
      (fun _ _ => trivial)))
    · exact fun _ _ h => Wp.pure h.1
    · exact fun _ _ h => Wp.pure h
  · exact fun _ u hroot => hundo _ _ u (hundoable.of_root hroot)

/-- A commit that reports success has put the new files in place, whatever its medium is like. -/
theorem wp_commitFileSet_new (hs : plan.Sound)
    (hready : ∀ entry ∈ plan.entries, plan.Ready entry (plan.view entry d)) :
    Wp Quiet (commitFileSet plan.job) (fun _ => plan.Settled true) (fun _ _ => True) (fun _ => True)
      d := by
  rw [commitFileSet_eq]
  refine Wp.bind (Wp.bind (Wp.inspect (fun _ _ => ?_) (fun _ _ => trivial)))
  refine Wp.bind ((wp_verifyOriginalSnapshots plan.job _).mono ?_ (fun _ _ _ => trivial)
    (fun _ _ => trivial))
  rintro _ _ rfl
  refine (wp_append_root .committing).mono ?_ (fun _ _ _ => trivial) (fun _ h => h)
  intro _ t hroot
  have hready' : ∀ entry ∈ plan.entries, plan.Ready entry (plan.view entry t) :=
    fun entry he => Plan.view_of_root hroot ▸ hready entry he
  exact (wp_finishCommit hs hready').mono (fun _ _ h => h) (fun _ _ _ => trivial) (fun _ h => h)

end Files

/-! ### The first record -/

/-- A failed append makes no record durable. -/
def Medium.Loses (medium : Medium) : Event Intrusion → Prop
  | .fail (.within n) => medium.tears = true → ∀ state, n < recordLength state
  | .fail .after => ∀ state, medium.unknown state = false
  | .outside _ => False
  | _ => True

theorem Medium.Loses.quiet {medium : Medium} {e : Event Intrusion} (h : medium.Loses e) :
    Quiet e := by
  rintro m rfl
  exact h

theorem wp_appendRecord_lost {medium : Medium} {name : String} {state : JournalState} {d : Disk} :
    Wp medium.Loses ((appendRecord medium name state).run : JobProg Unit)
      (fun _ t => t.root = d.root)
      (fun _ t => t = d ∨ AppendChange name state (· < recordLength state) d t) (fun _ => True)
      d := by
  refine Wp.step (fun _ h => h) ⟨?_, fun _ _ => .inl rfl, ?_, fun _ _ => trivial⟩
  · exact fun _ _ ht => (appendRecord_ok ht).private.root
  intro c hc
  simp only [appendRecord]
  cases hdirectory : d.directory name with
  | none => cases c <;> simp [appendRecord.appendPart, hdirectory]
  | some directory =>
    cases hold : directory.journal with
    | none => cases c <;> simp [appendRecord.appendPart, hdirectory, hold]
    | some old =>
      cases c with
      | before => exact .inl rfl
      | within n =>
        cases htears : medium.tears with
        | false => simp [appendRecord.appendPart, hdirectory, hold, htears]
        | true =>
          refine .inr ?_
          simp only [appendRecord.appendPart, hdirectory, hold, htears, Bool.not_true,
            Bool.false_eq_true, if_false]
          exact .cut hdirectory hold (hc htears state)
      | after => exact .inl (by simp [hdirectory, hold, hc state])

section Answer

variable [Unicode] [Deserialize JournalHeader] [Deserialize JournalStateRecord]

/-- The journal holds the `Prepared` record and at most a part of the next one, which a reader
does not take for a record. -/
structure StillPrepared (job : PreparedJob) (t : Disk) : Prop where
  recorded : t.history.recorded job.header.jobId = [.prepared]
  read : ∃ tail, t.journal job.header.jobId = some (newJournal job.header ++ tail) ∧
    ∀ header state, readJournal (newJournal job.header ++ tail) = .ok (header, state) →
      header = job.header ∧ state = .prepared

omit [Deserialize JournalHeader] [Unicode] [Deserialize JournalStateRecord] in
theorem length_recordText (state : JournalState) :
    (recordText state).length = recordLength state := by
  simp [recordLength, recordLine_eq]

theorem readJournal_newJournal [LawfulDeserialize JournalStateRecord] {header header' : JournalHeader}
    {state : JournalState} (next : JournalState) (n : Nat) (hn : n < recordLength next)
    (h : readJournal (newJournal header ++ (recordLine next).take n) = .ok (header', state)) :
    header' = header ∧ state = .prepared := by
  rw [← length_recordText] at hn
  rw [newJournal_eq, take_recordLine next hn.le] at h
  have hnewline : 10 ∉ (recordText next).take n :=
    fun hmem => recordText_no_newline next (List.mem_of_mem_take hmem)
  have hsplit := split_journalBytes header [.prepared] ((recordText next).take n)
  rw [split_of_not_mem hnewline] at hsplit
  obtain ⟨hheader, hrecords⟩ := readJournal_cons hsplit h
  refine ⟨(lineText_injective hheader).symm, ?_⟩
  rw [readRecords_lines] at hrecords
  have hadvance : advance none [.prepared] = .ok (some .prepared) := rfl
  rw [hadvance, Result.ok_bind] at hrecords
  by_cases hempty : (recordText next).take n = []
  · simpa [hempty, readRecords, eq_comm] using hrecords
  · have hlast : (journalBytes header [.prepared] ++ (recordText next).take n).getLast? ≠ some 10 := by
      rw [List.getLast?_append_of_ne_nil _ hempty]
      exact fun hlast => hnewline (List.mem_of_getLast? hlast)
    rw [decide_eq_false hlast, readRecords_part, if_neg (by omega)] at hrecords
    simpa [eq_comm] using hrecords

theorem Plan.Journaled.stillPrepared [LawfulDeserialize JournalStateRecord] {plan : Plan}
    {d t : Disk} (hj : plan.Journaled [.prepared] d)
    (h : t = d ∨ AppendChange plan.jobId .committing (· < recordLength .committing) d t) :
    StillPrepared plan.job t := by
  have hjournal := hj.journal
  rw [← newJournal_eq] at hjournal
  rcases h with rfl | ⟨hdirectory, hold, hn⟩
  · refine ⟨hj.recorded, [], by simpa [Plan.jobId] using hjournal, ?_⟩
    intro header state hread
    exact readJournal_newJournal .committing 0 (by decide) (by simpa using hread)
  · rename_i n directory old
    simp only [Disk.journal, hdirectory, Option.bind_eq_bind, Option.bind_some, hold,
      Option.some.injEq] at hjournal
    subst hjournal
    have hset := Disk.journal_setEntry (d := d) { directory with
      journal := some (newJournal plan.job.header ++ (recordLine .committing).take n) }
      (Disk.hasJob_of_directory hdirectory)
    have happended : d.appended plan.jobId .committing n directory (newJournal plan.job.header) =
        appendBytes d plan.jobId directory (newJournal plan.job.header)
          ((recordLine .committing).take n) := by
      simp [Disk.appended, Nat.not_le.mpr hn]
    rw [happended]
    refine ⟨?_, (recordLine .committing).take n, ?_, fun _ _ => readJournal_newJournal _ n hn⟩
    · unfold appendBytes
      split <;> exact hj.recorded
    · unfold appendBytes
      split <;> exact hset

/-- The files of the root and the storage of the job have not been touched. -/
structure Untouched (path jobId : String) (d d' : Disk) : Prop where
  target : ∀ p, d'.target path p = d.target path p
  reserved : d'.reserved path jobId = d.reserved path jobId
  rootEntry : (d'.root path).entry = (d.root path).entry
  directory : d'.directory jobId = d.directory jobId
  recorded : d'.history.recorded jobId = d.history.recorded jobId

omit [Unicode] [Deserialize JournalHeader] [Deserialize JournalStateRecord] in
theorem Untouched.view {plan : Plan} {d d' : Disk} (h : Untouched plan.path plan.jobId d d')
    (entry : JournalEntry) : plan.view entry d' = plan.view entry d := by
  have hprepared : d'.prepared plan.path plan.jobId = d.prepared plan.path plan.jobId := by
    funext index
    simp [Disk.prepared, h.reserved]
  simp [Plan.view, h.target, Disk.backup, hprepared, h.reserved]

omit [Unicode] [Deserialize JournalHeader] [Deserialize JournalStateRecord] in
theorem Untouched.journaled {plan : Plan} {d d' : Disk} (h : Untouched plan.path plan.jobId d d')
    {states : List JournalState} (hj : plan.Journaled states d) : plan.Journaled states d' where
  journal := by simpa [Disk.journal, h.directory] using hj.journal
  recorded := h.recorded.trans hj.recorded
  verified := by
    have hverified := hj.verified
    have hentry : (d'.root plan.job.header.root.canonicalPath).entry =
      (d.root plan.job.header.root.canonicalPath).entry := h.rootEntry
    simpa [localVerifyRootIdentity, hentry] using hverified

variable [Sha256] [LawfulDeserialize JournalStateRecord] {policy : Policy}

omit [Unicode] [Sha256] [Deserialize JournalHeader] [Deserialize JournalStateRecord]
  [LawfulDeserialize JournalStateRecord] in
theorem wp_startCommit {job : PreparedJob} {d : Disk} :
    Wp job.policy.medium.Loses (startCommit job) (fun _ t => t.root = d.root)
      (fun _ t => t = d ∨ AppendChange job.header.jobId .committing
        (· < recordLength .committing) d t) (fun _ => True) d := by
  refine Wp.bind (Wp.inspect (fun _ _ => ?_) (fun _ _ => .inl rfl))
  have hverify : Keeps job.policy.medium.Loses (· = d)
      (verifyOriginalSnapshots job job.header.entries) := keeps_verifyOriginalSnapshots _
  refine Wp.bind ((hverify d rfl).mono ?_ (fun _ _ h => .inl h) (fun _ _ => trivial))
  rintro _ _ rfl
  exact wp_appendRecord_lost

omit [Sha256] in
theorem Plan.Sound.answer {plan : Plan} (hs : plan.Sound) {d t : Disk}
    (hj : plan.Journaled [.prepared] d)
    (hready : ∀ entry ∈ plan.entries, plan.Ready entry (plan.view entry d))
    {sch rest : Schedule Intrusion} {o : Outcome MaintenanceError CommitResult}
    (hlost : ∀ e ∈ sch, plan.job.policy.medium.Loses e)
    (hcommit : commitFileSet plan.job d sch = (o, t, rest)) :
    match o with
    | .ok _ => plan.Settled true t
    | .error e => e.code ≠ .recoveryIncomplete →
        plan.Settled false t ∧ (plan.Swept t ∨ StillPrepared plan.job t)
    | .crashed => True := by
  have hsettled : plan.Settled false d := fun entry he => (hready entry he).1
  have hstart := @wp_startCommit plan.job d sch hlost
  rw [commitFileSet_eq, run_bind] at hcommit
  rcases hrun : startCommit plan.job d sch with ⟨started | e | _, u, middle⟩
  · rw [hrun] at hstart hcommit
    have hready' : ∀ entry ∈ plan.entries, plan.Ready entry (plan.view entry u) :=
      fun entry he => Plan.view_of_root hstart.2 ▸ hready entry he
    have hfinish := (wp_finishCommit hs hready').result (fun e he => (hstart.1 e he).quiet) hcommit
    cases o with
    | ok result => exact hfinish
    | error e => exact fun hcode => (hfinish hcode).imp id .inl
    | crashed => trivial
  · rw [hrun] at hstart hcommit
    cases hcommit
    intro _
    have hleft : t = d ∨ AppendChange plan.jobId .committing (· < recordLength .committing) d t :=
      hstart.2
    have hroot : t.root = d.root := by
      rcases hleft with rfl | hpart
      · rfl
      · exact hpart.private.root
    exact ⟨hsettled.of_root hroot, .inr (hj.stillPrepared hleft)⟩
  · rw [hrun] at hcommit
    cases hcommit
    trivial

end Answer

section Sample

attribute [local instance] sampleUnicode sampleSha256 sampleRecords sampleRecords_lawful
  sampleHeaders

/-- The first target has become a backup when its new file cannot be moved to its place. -/
def refusedCommit : Faulty.Result Disk MaintenanceError Intrusion CommitResult :=
  commitFileSet sampleJob samplePrepare.2.1 (List.replicate 6 .go ++ [.fail .before])

theorem samplePrepare_eq : samplePrepare = (.ok sampleJob, samplePrepare.2.1, samplePrepare.2.2) := by
  have hreached : Service.Reached quietPolicy (fun _ _ => True) (.start (sampleDisk twoFiles)) :=
    sampleDisk_reached
  obtain ⟨job, hprepare⟩ := exists_ok (r := samplePrepare) (by decide +kernel)
  have hprepared := (wp_prepareFileSet_tidy (hreached.sane rfl).tidy sampleManifest sampleRoot true
    _ _).result (by simp) hprepare
  rw [hprepare, hprepared.1.job]
  rfl

end Sample

end Se7en

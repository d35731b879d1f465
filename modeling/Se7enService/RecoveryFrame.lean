import Se7enService.JournalBytes
import Se7enService.TransactionFrame
set_option autoImplicit false

/-! What the recovery of one directory leaves alone. -/

namespace Se7en
open Faulty

/-! ### Reading a private directory -/

theorem Disk.hasJob_of_directory {d : Disk} {name : String} {directory : JobDirectory}
    (h : d.directory name = some directory) : d.hasJob name = true := by
  by_contra hjob
  simp [Disk.directory, hjob] at h

theorem Disk.directory_setEntry {d : Disk} {name : String} (directory : JobDirectory)
    (h : d.hasJob name = true) : (d.setEntry name directory).directory name = some directory := by
  have hjob : (d.setEntry name directory).hasJob name = true := h
  have hentry : (d.setEntry name directory).entry name = .directory directory := update_self _ _ _
  simp [Disk.directory, hjob, hentry]

theorem Disk.journal_setEntry {d : Disk} {name : String} (directory : JobDirectory)
    (h : d.hasJob name = true) : (d.setEntry name directory).journal name = directory.journal := by
  simp [journal, directory_setEntry directory h]

/-- The journal is as it was, or it has been removed. -/
def Dropped (name : String) (d d' : Disk) : Prop :=
  d'.journal name = d.journal name ∨ d'.journal name = none

/-- The journal has at most been added to, or it has been removed. -/
def Grown (name : String) (d d' : Disk) : Prop :=
  d'.journal name = none ∨ ∃ old more, d.journal name = some old ∧ d'.journal name = some (old ++ more)

section Journals

variable {name : String} {d₀ d d' : Disk}

theorem Dropped.trans (h : Dropped name d₀ d) (h' : Dropped name d d') : Dropped name d₀ d' := by
  obtain h' | h' := h'
  · obtain h | h := h
    · exact .inl (h'.trans h)
    · exact .inr (h'.trans h)
  · exact .inr h'

theorem Dropped.grown (h : Dropped name d d') : Grown name d d' := by
  obtain h | h := h
  · cases hjournal : d.journal name with
    | none => exact .inl (h.trans hjournal)
    | some old => exact .inr ⟨old, [], hjournal, by simp [h, hjournal]⟩
  · exact .inl h

theorem Grown.trans (h : Grown name d₀ d) (h' : Grown name d d') : Grown name d₀ d' := by
  obtain h' | ⟨old', more', hold', hmore'⟩ := h'
  · exact .inl h'
  · obtain h | ⟨old, more, hold, hmore⟩ := h
    · simp [h] at hold'
    · obtain rfl := Option.some.inj (hmore.symm.trans hold')
      exact .inr ⟨old, more ++ more', hold, by simp [hmore']⟩

theorem dropped_of_directory (h : d'.directory name = d.directory name) : Dropped name d d' :=
  .inl (by simp [Disk.journal, h])

theorem dropped_removeJob_part (n : Nat) : Dropped name d (removeJob.removePart name n d) := by
  unfold removeJob.removePart
  split
  · exact .inl rfl
  · rename_i directory hdirectory
    have hjob := Disk.hasJob_of_directory hdirectory
    have hjournal : d.journal name = directory.journal := by simp [Disk.journal, hdirectory]
    by_cases hsurvives : survives n 0
    · refine .inl ((Disk.journal_setEntry _ hjob).trans ?_)
      simp [hsurvives, hjournal]
    · refine .inr ((Disk.journal_setEntry _ hjob).trans ?_)
      simp [hsurvives]

theorem Disk.hasJob_withoutJob : (d.withoutJob name).hasJob name = false := by
  cases h : d.jobs <;> simp [withoutJob, hasJob, h]

theorem Disk.journal_withoutJob : (d.withoutJob name).journal name = none := by
  simp [journal, directory, hasJob_withoutJob]

theorem Dropped.disposable : Disposable name (Dropped name d₀) where
  done _ _ := .inr Disk.journal_withoutJob
  part _ n ht := ht.trans (dropped_removeJob_part n)

theorem directory_setReserved (path jobId : String) (job : Option ReservedJob) :
    (d.setReserved path jobId job).directory name = d.directory name := rfl

theorem dropped_removeReserved_part {path jobId : String} (n : Nat) :
    Dropped name d (removeReserved.removePart path jobId n d) := by
  unfold removeReserved.removePart
  split
  · exact .inl rfl
  · exact dropped_of_directory (directory_setReserved _ _ _)

theorem dropped_cleanup {prepared : PreparedJob} :
    Keeps Quiet (Dropped prepared.header.jobId d₀) (cleanupPreparedJob prepared) :=
  keeps_cleanupPreparedJob Stable.quiet
    (fun _ ht => ht.trans (dropped_of_directory (directory_setReserved _ _ none)))
    (fun _ n ht => ht.trans (dropped_removeReserved_part n)) Dropped.disposable

theorem dropped_cleanupPrivate (prepared : PreparedJob) :
    Keeps Quiet (Dropped prepared.header.jobId d₀) (cleanupPrivatePreparedJob prepared) :=
  keeps_cleanupPrivatePreparedJob prepared Stable.quiet Dropped.disposable

theorem journal_appendBytes {directory : JobDirectory} {old new : Bytes}
    (hdirectory : d.directory name = some directory) :
    (appendBytes d name directory old new).journal name = some (old ++ new) := by
  have hset := Disk.journal_setEntry { directory with journal := some (old ++ new) }
    (Disk.hasJob_of_directory hdirectory)
  unfold appendBytes
  split <;> exact hset

theorem Disk.journal_appended {state : JournalState} {n : Nat} {directory : JobDirectory}
    {old : Bytes} (hdirectory : d.directory name = some directory) :
    (d.appended name state n directory old).journal name =
      some (old ++ (recordLine state).take n) := by
  unfold Disk.appended
  split <;> exact journal_appendBytes hdirectory

theorem AppendChange.journal {state : JournalState} {May : Nat → Prop}
    (h : AppendChange name state May d d') : ∃ old n, d.journal name = some old ∧ May n ∧
      d'.journal name = some (old ++ (recordLine state).take n) := by
  cases h with
  | cut hdirectory hold hn =>
    exact ⟨_, _, by simp [Disk.journal, hdirectory, hold], hn, Disk.journal_appended hdirectory⟩

theorem AppendChange.grown {state : JournalState} {May : Nat → Prop}
    (h : AppendChange name state May d d') : Grown name d d' := by
  obtain ⟨old, n, hold, -, hnew⟩ := h.journal
  exact .inr ⟨old, _, hold, hnew⟩

theorem grown_appendState {prepared : PreparedJob} (state : JournalState) :
    Keeps Quiet (Grown prepared.header.jobId d₀) (appendState prepared state) :=
  keeps_appendRecord Stable.quiet fun _ _ ht hc => ht.trans hc.grown

theorem keeps_grown_of_moved {path jobId : String} {entries : List JournalEntry} {p : JobProg Unit}
    (h : ∀ d, Keeps Quiet (Moved path jobId entries d) p) : Keeps Quiet (Grown name d₀) p := by
  refine Keeps.of_relation (R := Grown name) (fun _ _ _ => Grown.trans) (fun d => ?_) d₀
  have hmoved : ∀ t, Moved path jobId entries d t → Grown name d t :=
    fun t ht => (dropped_of_directory (ht.directory name)).grown
  exact (h d d Moved.refl).mono (fun _ => hmoved) (fun _ => hmoved) hmoved

theorem keeps_grown_of_dropped {p : JobProg Unit} (h : ∀ d, Keeps Quiet (Dropped name d) p) :
    Keeps Quiet (Grown name d₀) p := by
  refine Keeps.of_relation (R := Grown name) (fun _ _ _ => Grown.trans) (fun d => ?_) d₀
  exact (h d d (.inl rfl)).mono (fun _ _ ht => ht.grown) (fun _ _ ht => ht.grown)
    (fun _ ht => ht.grown)

end Journals

/-! ### One directory -/

section Recovery

variable [Unicode] [Deserialize JournalHeader] [Deserialize JournalStateRecord]

/-- A job whose journal tells recovery to roll it back. -/
def Disk.unfinished (d : Disk) (name : String) (header : JournalHeader) : Prop :=
  ∃ bytes state, d.journal name = some bytes ∧ readJournal bytes = .ok (header, state) ∧
    (state = .committing ∨ state = .rollingBack)

/-- What the recovery of one directory may do: only an unfinished job changes its targets,
and no job becomes unfinished. -/
structure Recovered (name : String) (d d' : Disk) : Prop where
  frame : ∃ path entries, Frame path name entries d d' ∧ (entries = [] ∨
    ∃ header, d.unfinished name header ∧ header.root.canonicalPath = path ∧ header.entries = entries)
  unfinished : ∀ header, d'.unfinished name header → d.unfinished name header

variable {name : String} {d d' : Disk}

theorem Recovered.refl : Recovered name d d where
  frame := ⟨name, [], Frame.refl, .inl rfl⟩
  unfinished _ h := h

theorem Dropped.unfinished (h : Dropped name d d') {header : JournalHeader}
    (hu : d'.unfinished name header) : d.unfinished name header := by
  obtain ⟨bytes, state, hbytes, hread, hstate⟩ := hu
  obtain h | h := h
  · exact ⟨bytes, state, h ▸ hbytes, hread, hstate⟩
  · simp [h] at hbytes

theorem Dropped.recovered {path : String} (hd : Dropped name d d') (hf : Frame path name [] d d') :
    Recovered name d d' where
  frame := ⟨path, [], hf, .inl rfl⟩
  unfinished _ h := hd.unfinished h

theorem Grown.recovered {header : JournalHeader} (hu : d.unfinished name header)
    (hg : Grown name d d') (hf : Frame header.root.canonicalPath name header.entries d d') :
    Recovered name d d' where
  frame := ⟨_, _, hf, .inr ⟨header, hu, rfl, rfl⟩⟩
  unfinished header' hu' := by
    obtain ⟨bytes', state', hbytes', hread', hstate'⟩ := hu'
    obtain ⟨bytes, state, hbytes, hread, hstate⟩ := hu
    obtain h | ⟨old, more, hold, hmore⟩ := hg
    · simp [h] at hbytes'
    · obtain rfl := Option.some.inj (hmore.symm.trans hbytes')
      obtain rfl := Option.some.inj (hold.symm.trans hbytes)
      obtain rfl := readJournal_header hread hread'
      exact ⟨old, state, hbytes, hread, hstate⟩

theorem wp_recoverState (prepared : PreparedJob)
    (hpolicy : prepared.policy.usesAtomicReplacement = false) {state : JournalState} {bytes : Bytes}
    (hjournal : d.journal prepared.header.jobId = some bytes)
    (hread : readJournal bytes = .ok (prepared.header, state)) (result : RecoveryResult) :
    Wp Quiet (recoverState prepared state result) (fun _ => Recovered prepared.header.jobId d)
      (fun _ => Recovered prepared.header.jobId d) (Recovered prepared.header.jobId d) d := by
  have hfinished : ∀ result', Wp Quiet (do cleanupPreparedJob prepared; pure result' : JobProg RecoveryResult)
      (fun _ => Recovered prepared.header.jobId d) (fun _ => Recovered prepared.header.jobId d)
      (Recovered prepared.header.jobId d) d := by
    intro result'
    refine Wp.of_keeps (I := Dropped prepared.header.jobId d) (J := prepared.Frames [] d)
      (Keeps.bind dropped_cleanup fun _ => Keeps.pure _)
      (Keeps.bind frame_cleanupPreparedJob fun _ => Keeps.pure _) ?_ (.inl rfl) Frame.refl
    exact fun t hd hf => hd.recovered hf
  have hrollback : ∀ result', d.unfinished prepared.header.jobId prepared.header →
      Keeps Quiet (fun t => Grown prepared.header.jobId d t ∧
        prepared.Frames prepared.header.entries d t)
        (do rollbackEntries prepared; cleanupPreparedJob prepared; pure result' : JobProg RecoveryResult) := by
    intro result' hu
    refine fun s hs => Wp.and ?_ ?_
    · exact (Keeps.bind (keeps_grown_of_moved fun _ => moves_rollbackEntries hpolicy) fun _ =>
        Keeps.bind (keeps_grown_of_dropped fun _ => dropped_cleanup) fun _ =>
          Keeps.pure _) s hs.1
    · exact (Keeps.bind (keeps_frame_of_moved fun _ => moves_rollbackEntries hpolicy) fun _ =>
        Keeps.bind frame_cleanupPreparedJob fun _ => Keeps.pure _) s hs.2
  have hstart : Grown prepared.header.jobId d d ∧ prepared.Frames prepared.header.entries d d :=
    ⟨Dropped.grown (.inl rfl), Frame.refl⟩
  cases state with
  | prepared => exact hfinished _
  | committed => exact hfinished _
  | committing =>
    have hu : d.unfinished prepared.header.jobId prepared.header :=
      ⟨bytes, .committing, hjournal, hread, .inl rfl⟩
    have happend : Keeps Quiet (fun t => Grown prepared.header.jobId d t ∧
        prepared.Frames prepared.header.entries d t) (appendState prepared .rollingBack) :=
      fun s hs => Wp.and (grown_appendState _ s hs.1) (frame_appendState _ s hs.2)
    refine ((Keeps.bind happend fun _ => hrollback _ hu) d hstart).mono ?_ ?_ ?_
    · exact fun _ t ht => ht.1.recovered hu ht.2
    · exact fun _ t ht => ht.1.recovered hu ht.2
    · exact fun t ht => ht.1.recovered hu ht.2
  | rollingBack =>
    have hu : d.unfinished prepared.header.jobId prepared.header :=
      ⟨bytes, .rollingBack, hjournal, hread, .inr rfl⟩
    refine (hrollback _ hu d hstart).mono ?_ ?_ ?_
    · exact fun _ t ht => ht.1.recovered hu ht.2
    · exact fun _ t ht => ht.1.recovered hu ht.2
    · exact fun t ht => ht.1.recovered hu ht.2

theorem wp_recoverDirectory {policy : Policy} (hpolicy : policy.usesAtomicReplacement = false)
    (name : String) (result : RecoveryResult) (d : Disk) :
    Wp Quiet (recoverDirectory policy name result) (fun _ => Recovered name d)
      (fun _ => Recovered name d) (Recovered name d) d := by
  refine Wp.bind (Wp.look ?_)
  cases hdirectory : d.directory name with
  | none => exact Wp.throw Recovered.refl
  | some directory =>
    cases hjournal : directory.journal with
    | none =>
      simp only [hjournal]
      refine Wp.of_keeps (I := Dropped name d) (J := Frame name name [] d)
        (Keeps.bind (keeps_removeJob Stable.quiet Dropped.disposable) fun _ => Keeps.pure _)
        (Keeps.bind (keeps_removeJob Stable.quiet Frame.disposable) fun _ => Keeps.pure _) ?_
        (.inl rfl) Frame.refl
      exact fun t hd hf => hd.recovered hf
    | some bytes =>
      simp only [hjournal]
      refine Wp.bind (Wp.lift (fun read hread => ?_) (fun _ _ => Recovered.refl))
      obtain ⟨header, state⟩ := read
      have hbytes : d.journal name = some bytes := by simp [Disk.journal, hdirectory, hjournal]
      by_cases hname : name = header.jobId
      · subst hname
        simp only [ne_eq, not_true_eq_false, if_false]
        refine Wp.bind (Wp.look ?_)
        split
        · refine Wp.bind (Wp.look ?_)
          split
          · refine Wp.of_keeps (I := Dropped header.jobId d)
              (J := PreparedJob.Frames { header, policy } [] d)
              (Keeps.bind (dropped_cleanupPrivate { header, policy }) fun _ => Keeps.pure _)
              (Keeps.bind frame_cleanupPrivatePreparedJob fun _ => Keeps.pure _) ?_ (.inl rfl)
              Frame.refl
            exact fun t hd hf => hd.recovered hf
          · exact Wp.throw Recovered.refl
        · exact wp_recoverState { header, policy } hpolicy hbytes hread result
      · simp only [ne_eq, hname, not_false_eq_true, if_true]
        exact Wp.bind (Wp.throw Recovered.refl)

/-! A recovered directory is gone. -/

omit [Unicode] [Deserialize JournalHeader] [Deserialize JournalStateRecord] in
theorem wp_removeJob_done : Wp Quiet ((removeJob name).run : JobProg Unit)
    (fun _ t => t.hasJob name = false) (fun _ _ => True) (fun _ => True) d := by
  apply Wp.step_quiet
  constructor
  · intro _ d' he
    simp only [removeJob] at he
    cases he
    exact Disk.hasJob_withoutJob
  all_goals simp

omit [Unicode] [Deserialize JournalHeader] [Deserialize JournalStateRecord] in
theorem wp_removeJob_found : Wp Quiet (do if ← look (·.hasJob name) then (removeJob name).run : JobProg Unit)
    (fun _ t => t.hasJob name = false) (fun _ _ => True) (fun _ => True) d := by
  refine Wp.bind (Wp.look ?_)
  cases hjob : d.hasJob name with
  | true => exact wp_removeJob_done
  | false => exact Wp.pure hjob

omit [Unicode] [Deserialize JournalHeader] [Deserialize JournalStateRecord] in
theorem wp_cleanup_done {prepared : PreparedJob} (hname : prepared.header.jobId = name) :
    Wp Quiet (cleanupPreparedJob prepared) (fun _ t => t.hasJob name = false) (fun _ _ => True)
      (fun _ => True) d := by
  subst hname
  refine Wp.runMutation (fun _ => trivial) trivial ?_
  refine Wp.mono ?_ (fun _ _ h => ⟨h, fun _ => trivial, trivial⟩) (fun _ _ h => h) (fun _ h => h)
  refine Wp.bind (Wp.look ?_)
  cases (d.reserved prepared.header.root.canonicalPath prepared.header.jobId).isSome with
  | false => exact wp_removeJob_found
  | true =>
    refine Wp.bind (Wp.lift (fun _ _ => ?_) (fun _ _ => trivial))
    have hremove : Wp Quiet ((removeReserved prepared.header.root.canonicalPath
        prepared.header.jobId).run : JobProg Unit) (fun _ _ => True) (fun _ _ => True)
        (fun _ => True) d :=
      Keeps.step_quiet (fun _ _ => trivial) (fun _ _ _ => trivial) (fun _ _ _ => trivial) d trivial
    exact Wp.bind (hremove.mono (fun _ _ _ => wp_removeJob_found) (fun _ _ h => h) (fun _ h => h))

theorem wp_recoverDirectory_done {policy : Policy} (hpolicy : policy.usesAtomicReplacement = false)
    (name : String) (result : RecoveryResult) :
    Wp Quiet (recoverDirectory policy name result) (fun _ t => t.hasJob name = false)
      (fun _ _ => True) (fun _ => True) d := by
  have hcleanup : ∀ (prepared : PreparedJob) (result' : RecoveryResult) (t : Disk),
      prepared.header.jobId = name →
      Wp Quiet (do cleanupPreparedJob prepared; pure result') (fun _ t => t.hasJob name = false)
        (fun _ _ => True) (fun _ => True) t := by
    intro prepared result' t hname
    exact Wp.bind ((wp_cleanup_done hname).mono (fun _ _ h => Wp.pure h) (fun _ _ h => h)
      (fun _ h => h))
  have hrollback : ∀ (prepared : PreparedJob) (result' : RecoveryResult) (t : Disk),
      prepared.policy.usesAtomicReplacement = false → prepared.header.jobId = name →
      Wp Quiet (do rollbackEntries prepared; cleanupPreparedJob prepared; pure result')
        (fun _ t => t.hasJob name = false) (fun _ _ => True) (fun _ => True) t := by
    intro prepared result' t hatomic hname
    refine Wp.bind ((moves_rollbackEntries hatomic t Moved.refl).mono ?_ (fun _ _ _ => trivial)
      (fun _ _ => trivial))
    exact fun _ t' _ => hcleanup prepared result' t' hname
  refine Wp.bind (Wp.look ?_)
  cases d.directory name with
  | none => exact Wp.throw trivial
  | some directory =>
    cases hjournal : directory.journal with
    | none =>
      simp only [hjournal]
      exact Wp.bind (wp_removeJob_done.mono (fun _ _ h => Wp.pure h) (fun _ _ h => h) (fun _ h => h))
    | some bytes =>
      simp only [hjournal]
      refine Wp.bind (Wp.lift (fun read _ => ?_) (fun _ _ => trivial))
      obtain ⟨header, state⟩ := read
      by_cases hname : name = header.jobId
      · simp only [hname, ne_eq, not_true_eq_false, if_false]
        refine Wp.bind (Wp.look ?_)
        split
        · refine Wp.bind (Wp.look ?_)
          split
          · refine Wp.bind (Wp.runMutation (fun _ => trivial) trivial ?_)
            refine wp_removeJob_found.mono ?_ (fun _ _ h => h) (fun _ h => h)
            exact fun _ _ h => ⟨Wp.pure (hname ▸ h), fun _ => trivial, trivial⟩
          · exact Wp.throw trivial
        · rw [← hname]
          cases state with
          | prepared => exact hcleanup _ _ _ hname.symm
          | committed => exact hcleanup _ _ _ hname.symm
          | rollingBack => exact hrollback _ _ _ hpolicy hname.symm
          | committing =>
            have happend : Wp Quiet (appendState { header, policy } .rollingBack)
                (fun _ => PreparedJob.Frames { header, policy } [] d)
                (fun _ => PreparedJob.Frames { header, policy } [] d)
                (PreparedJob.Frames { header, policy } [] d) d :=
              frame_appendState .rollingBack d Frame.refl
            refine Wp.bind (happend.mono ?_
              (fun _ _ _ => trivial) (fun _ _ => trivial))
            exact fun _ t _ => hrollback _ _ t hpolicy hname.symm
      · simp only [ne_eq, hname, not_false_eq_true, if_true]
        exact Wp.bind (Wp.throw trivial)

/-- What the recovery of each directory keeps. -/
theorem keeps_recoverIncomplete {A : Event Intrusion → Prop} {I : Disk → Prop} {policy : Policy}
    (h : ∀ name result, Keeps A I (recoverDirectory policy name result)) :
    Keeps A I (recoverIncompleteWithPolicy policy) := by
  refine Keeps.bind (Keeps.look _) fun jobs => ?_
  cases jobs with
  | none => exact Keeps.pure _
  | some names =>
    have hloop : ∀ (names : List String) (result : RecoveryResult),
        Keeps A I (recoverDirectories policy names result) := by
      intro names
      induction names with
      | nil => exact fun result => Keeps.pure result
      | cons name names ih => exact fun result => Keeps.bind (h name result) ih
    exact hloop _ _

end Recovery

end Se7en

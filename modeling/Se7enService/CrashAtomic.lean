import Se7enService.EntryUndo
import Se7enService.RecoveryFrame
set_option autoImplicit false

/-! Every crash of a commit and of the recoveries after it leaves a job that the next
recovery finishes or undoes as a whole. -/

namespace Se7en
open Faulty

namespace Plan

variable (plan : Plan)

def AllUndoable (d : Disk) : Prop :=
  ∀ entry ∈ plan.entries, plan.Undoable entry (plan.view entry d)

/-- All targets hold what the manifest says, or all hold what they held before. -/
def Settled (committed : Bool) (d : Disk) : Prop :=
  if committed then ∀ entry ∈ plan.entries, (plan.view entry d).node = plan.new entry
  else ∀ entry ∈ plan.entries, plan.Restored entry (plan.view entry d)

/-- The journal is there and holds these records, and the root is the registered one. -/
structure Journaled (states : List JournalState) (d : Disk) : Prop where
  journal : d.journal plan.jobId = some (journalBytes plan.job.header states)
  recorded : d.history.recorded plan.jobId = states
  verified : localVerifyRootIdentity d plan.job.header.root = .ok ()

/-- Nothing is left that a recovery could act on. -/
structure Gone (committed : Bool) (d : Disk) : Prop where
  journal : d.journal plan.jobId = none
  reserved : d.reserved plan.path plan.jobId = none
  verified : localVerifyRootIdentity d plan.job.header.root = .ok ()
  recorded : committed = decide (.committed ∈ d.history.recorded plan.jobId)
  settled : plan.Settled committed d

/-- What a crash may leave; `committed` tells on which side of the commit it is. -/
inductive Safe : Bool → Disk → Prop where
  | prepared {d : Disk} : plan.Journaled [.prepared] d → plan.Settled false d → Safe false d
  | undo {d : Disk} {states : List JournalState} : plan.Journaled states d →
      states = [.prepared, .committing] ∨ states = [.prepared, .committing, .rollingBack] →
      plan.AllUndoable d → Safe false d
  | committed {d : Disk} : plan.Journaled [.prepared, .committing, .committed] d →
      plan.Settled true d → Safe true d
  | gone {c : Bool} {d : Disk} : plan.Gone c d → Safe c d

end Plan

variable {plan : Plan} {d d' : Disk}

/-! ### Loops over the entries -/

theorem Plan.AllUndoable.moved (hs : plan.Sound) (h : plan.AllUndoable d) {entry : JournalEntry}
    (he : entry ∈ plan.entries) (hentry : plan.Undoable entry (plan.view entry d'))
    (hm : plan.job.Moves [entry] d d') : plan.AllUndoable d' := by
  intro other ho
  by_cases hne : other = entry
  · exact hne ▸ hentry
  · have hview := hs.view_other (List.cons_subset.mpr ⟨he, List.nil_subset _⟩) ho (by simpa using hne) hm
    rw [hview]
    exact h other ho

theorem Plan.Journaled.moved {states : List JournalState} {entries : List JournalEntry}
    (h : plan.Journaled states d) (hm : plan.job.Moves entries d d') :
    plan.Journaled states d' where
  journal := by
    have hdirectory := hm.directory plan.jobId
    simpa [Disk.journal, hdirectory] using h.journal
  recorded := by rw [hm.records]; exact h.recorded
  verified := by
    have hentry := hm.rootEntry
    simpa [localVerifyRootIdentity, hentry] using h.verified

/-- One entry after the other: what a program does to one entry it does not undo for the others. -/
theorem Plan.Leads.moves {entry : JournalEntry} {p : JobProg Unit} {pre post inv : View → Prop}
    (h : plan.Leads entry p pre post inv)
    (hm : ∀ d₀, Keeps Quiet (plan.job.Moves [entry] d₀) p) (hd : pre (plan.view entry d)) :
    Wp Quiet p (fun _ d' => post (plan.view entry d') ∧ plan.job.Moves [entry] d d')
      (fun _ d' => inv (plan.view entry d') ∧ plan.job.Moves [entry] d d')
      (fun d' => inv (plan.view entry d') ∧ plan.job.Moves [entry] d d') d :=
  (h d hd).and (hm d d Moved.refl)

theorem wp_rollbackReversed (hs : plan.Sound) {rest : List JournalEntry} (hsub : rest ⊆ plan.entries)
    (hnodup : rest.Nodup) (hd : plan.AllUndoable d) :
    Wp Quiet (rollbackReversed plan.job rest)
      (fun _ d' => plan.AllUndoable d' ∧ ∀ entry ∈ rest, plan.Restored entry (plan.view entry d'))
      (fun _ => plan.AllUndoable) plan.AllUndoable d := by
  induction rest generalizing d with
  | nil => exact Wp.pure ⟨hd, by simp⟩
  | cons entry rest ih =>
    obtain ⟨he, hrest⟩ := List.cons_subset.mp hsub
    obtain ⟨hnot, hnodup⟩ := List.nodup_cons.mp hnodup
    have hfirst := (leads_rollbackEntry hs he).moves
      (fun _ => moves_rollbackEntry hs.policy List.mem_cons_self) (hd entry he)
    refine Wp.bind (hfirst.mono ?_ ?_ ?_)
    · intro _ d₁ ⟨hrestored, hmoved⟩
      have hundo := hd.moved hs he hrestored.undoable hmoved
      have hmoves := moves_rollbackReversed hs.policy (List.Subset.refl rest) d₁ Moved.refl
      refine ((ih hrest hnodup hundo).and hmoves).mono ?_ (fun _ _ h => h.1) (fun _ h => h.1)
      intro _ d₂ ⟨⟨hundo₂, hdone⟩, hmoved₂⟩
      refine ⟨hundo₂, ?_⟩
      rw [List.forall_mem_cons]
      refine ⟨?_, hdone⟩
      rw [hs.view_other hrest he hnot hmoved₂]
      exact hrestored
    · exact fun _ _ h => hd.moved hs he h.1 h.2
    · exact fun _ h => hd.moved hs he h.1 h.2

theorem wp_applyEntries (hs : plan.Sound) {rest : List JournalEntry} (hsub : rest ⊆ plan.entries)
    (hnodup : rest.Nodup) (hd : plan.AllUndoable d)
    (hready : ∀ entry ∈ rest, plan.Ready entry (plan.view entry d)) :
    Wp Quiet (applyEntries plan.job rest)
      (fun _ d' => plan.AllUndoable d' ∧ ∀ entry ∈ rest, plan.Applied entry (plan.view entry d'))
      (fun _ => plan.AllUndoable) plan.AllUndoable d := by
  induction rest generalizing d with
  | nil => exact Wp.pure ⟨hd, by simp⟩
  | cons entry rest ih =>
    obtain ⟨he, hrest⟩ := List.cons_subset.mp hsub
    obtain ⟨hnot, hnodup⟩ := List.nodup_cons.mp hnodup
    rw [List.forall_mem_cons] at hready
    have hfirst := (leads_applyEntry hs he).moves
      (fun _ => moves_applyEntry hs.policy List.mem_cons_self) hready.1
    refine Wp.bind (hfirst.mono ?_ ?_ ?_)
    · intro _ d₁ ⟨happlied, hmoved⟩
      have hundo := hd.moved hs he happlied.2 hmoved
      have hready₁ : ∀ other ∈ rest, plan.Ready other (plan.view other d₁) := by
        intro other ho
        have hne : other ≠ entry := fun h => hnot (h ▸ ho)
        rw [hs.view_other (List.cons_subset.mpr ⟨he, List.nil_subset _⟩) (hrest ho) (by simpa using hne)
          hmoved]
        exact hready.2 other ho
      have hmoves := moves_applyEntries hs.policy (List.Subset.refl rest) d₁ Moved.refl
      refine ((ih hrest hnodup hundo hready₁).and hmoves).mono ?_ (fun _ _ h => h.1) (fun _ h => h.1)
      intro _ d₂ ⟨⟨hundo₂, hdone⟩, hmoved₂⟩
      refine ⟨hundo₂, ?_⟩
      rw [List.forall_mem_cons]
      refine ⟨?_, hdone⟩
      rw [hs.view_other hrest he hnot hmoved₂]
      exact happlied
    · exact fun _ _ h => hd.moved hs he h.1 h.2
    · exact fun _ h => hd.moved hs he h.1 h.2

theorem wp_rollbackEntries (hs : plan.Sound) {states : List JournalState}
    (hj : plan.Journaled states d) (hd : plan.AllUndoable d) :
    Wp Quiet (rollbackEntries plan.job)
      (fun _ d' => plan.Journaled states d' ∧ plan.Settled false d')
      (fun _ d' => plan.Journaled states d' ∧ plan.AllUndoable d')
      (fun d' => plan.Journaled states d' ∧ plan.AllUndoable d') d := by
  refine Wp.bind (Wp.inspect (fun _ _ => ?_) (fun _ _ => ⟨hj, hd⟩))
  have hsub : plan.entries.reverse ⊆ plan.entries := List.reverse_subset.mpr (List.Subset.refl _)
  have hloop := wp_rollbackReversed hs hsub (List.nodup_reverse.mpr hs.nodup) hd
  have hmoves := moves_rollbackReversed hs.policy hsub d Moved.refl
  refine (hloop.and hmoves).mono ?_ ?_ ?_
  · intro _ d' ⟨⟨_, hdone⟩, hmoved⟩
    exact ⟨hj.moved hmoved, fun entry he => hdone entry (List.mem_reverse.mpr he)⟩
  · exact fun _ d' ⟨hundo, hmoved⟩ => ⟨hj.moved hmoved, hundo⟩
  · exact fun d' ⟨hundo, hmoved⟩ => ⟨hj.moved hmoved, hundo⟩

/-! ### Records -/

theorem Plan.view_of_root {entry : JournalEntry} (h : d'.root = d.root) :
    plan.view entry d' = plan.view entry d := by
  have htarget : d'.target = d.target := by
    funext path target
    simp [Disk.target, h]
  have hbackup : d'.backup = d.backup := by
    funext path jobId index
    simp [Disk.backup, Disk.reserved, h]
  have hprepared : d'.prepared = d.prepared := by
    funext path jobId index
    simp [Disk.prepared, Disk.reserved, h]
  simp only [Plan.view, htarget, hbackup, hprepared]

theorem Plan.AllUndoable.of_root (h : plan.AllUndoable d) (hroot : d'.root = d.root) :
    plan.AllUndoable d' :=
  fun entry he => Plan.view_of_root hroot ▸ h entry he

theorem Plan.Settled.of_root {c : Bool} (h : plan.Settled c d) (hroot : d'.root = d.root) :
    plan.Settled c d' := by
  have hview : ∀ entry, plan.view entry d' = plan.view entry d := fun _ => Plan.view_of_root hroot
  cases c <;> simpa [Plan.Settled, hview] using h

theorem Plan.Journaled.directory {states : List JournalState} (h : plan.Journaled states d) :
    ∃ directory, d.directory plan.jobId = some directory ∧
      directory.journal = some (journalBytes plan.job.header states) := by
  have hjournal := h.journal
  cases hdirectory : d.directory plan.jobId with
  | none => simp [Disk.journal, hdirectory] at hjournal
  | some directory => exact ⟨directory, rfl, by simpa [Disk.journal, hdirectory] using hjournal⟩

theorem Plan.Journaled.appended {states : List JournalState} (h : plan.Journaled states d)
    {state : JournalState}
    (hc : AppendChange plan.jobId state (· = (recordLine state).length) d d') :
    plan.Journaled (states ++ [state]) d' := by
  cases hc with
  | cut hdirectory hold hn =>
    rename_i n directory old
    obtain rfl := hn
    have hjournal := h.journal
    simp only [Disk.journal, hdirectory, Option.bind_eq_bind, Option.bind_some, hold,
      Option.some.injEq] at hjournal
    subst hjournal
    have hset := Disk.journal_setEntry { directory with
      journal := some (journalBytes plan.job.header states ++ recordLine state) }
      (Disk.hasJob_of_directory hdirectory)
    rw [← appendRecord_whole]
    constructor
    · rw [journalBytes_append]
      unfold appendRecord.whole appendBytes
      split <;> exact hset
    · simp [appendRecord.whole, Disk.record, h.recorded]
    · rw [appendRecord_whole]
      have hroot := (private_appended d plan.jobId state (recordLine state).length directory
        (journalBytes plan.job.header states)).root
      simpa [localVerifyRootIdentity, hroot] using h.verified

theorem wp_appendState (htears : plan.job.policy.medium.tears = false) {states : List JournalState}
    (hj : plan.Journaled states d) (state : JournalState) :
    Wp Quiet (appendState plan.job state)
      (fun _ d' => plan.Journaled (states ++ [state]) d' ∧ d'.root = d.root)
      (fun _ d' => (plan.Journaled states d' ∨ plan.job.policy.medium.unknown state = true ∧
        plan.Journaled (states ++ [state]) d') ∧ d'.root = d.root)
      (fun d' => (plan.Journaled states d' ∨ plan.Journaled (states ++ [state]) d') ∧
        d'.root = d.root) d := by
  refine wp_appendRecord.mono ?_ ?_ ?_
  · exact fun _ t hc => ⟨hj.appended hc, hc.private.root⟩
  · rintro _ t (rfl | hc)
    · exact ⟨.inl hj, rfl⟩
    have hwhole := hc.whole htears
    exact ⟨.inr ⟨hwhole.1, hj.appended hwhole.2⟩, hc.private.root⟩
  · rintro t (rfl | hc)
    · exact ⟨.inl hj, rfl⟩
    · refine ⟨.inr (hj.appended (hc.mono ?_)), hc.private.root⟩
      simp [Medium.Cuts, htears]

/-! ### Cleaning up -/

theorem Plan.Settled.of_views {c : Bool} (h : plan.Settled c d)
    (hnode : ∀ entry, (plan.view entry d').node = (plan.view entry d).node)
    (hbackup : ∀ entry, (plan.view entry d).backup = none → (plan.view entry d').backup = none) :
    plan.Settled c d' := by
  cases c with
  | true =>
    simp only [Plan.Settled, if_true, hnode] at h ⊢
    exact h
  | false =>
    simp only [Plan.Settled, Bool.false_eq_true, if_false] at h ⊢
    intro entry he
    obtain ⟨hold, hnone⟩ := h entry he
    exact ⟨(hnode entry).trans hold, fun hsome => hbackup entry (hnone hsome)⟩

theorem Plan.Settled.removeReserved {c : Bool} (h : plan.Settled c d) :
    plan.Settled c (d.setReserved plan.path plan.jobId none) := by
  apply h.of_views
  · intro entry
    simp [Plan.view]
  · intro entry _
    simp [Plan.view, Disk.backup]

theorem Plan.Settled.removePart {c : Bool} (h : plan.Settled c d) (n : Nat) :
    plan.Settled c (removeReserved.removePart plan.path plan.jobId n d) := by
  unfold removeReserved.removePart
  split
  · exact h
  · rename_i job hjob
    apply h.of_views
    · intro entry
      simp [Plan.view]
    · intro entry hnone
      rw [Plan.view_setReserved]
      simp only [Plan.view, Disk.backup_of_reserved hjob] at hnone
      simp [hnone]

theorem Plan.Journaled.setReserved {states : List JournalState} (h : plan.Journaled states d)
    (job : Option ReservedJob) : plan.Journaled states (d.setReserved plan.path plan.jobId job) where
  journal := h.journal
  recorded := h.recorded
  verified := by
    have hverified := h.verified
    simpa [localVerifyRootIdentity] using hverified

theorem Plan.Journaled.removePart {states : List JournalState} (h : plan.Journaled states d)
    (n : Nat) : plan.Journaled states (removeReserved.removePart plan.path plan.jobId n d) := by
  unfold removeReserved.removePart
  split
  · exact h
  · exact h.setReserved _

/-- A cleanup that was cut short: the journal still tells what to do, or nothing is left to do. -/
def Plan.Left (plan : Plan) (c : Bool) (states : List JournalState) (d : Disk) : Prop :=
  plan.Journaled states d ∧ plan.Settled c d ∨ plan.Gone c d

theorem Plan.Journaled.gone {c : Bool} {states : List JournalState} (hj : plan.Journaled states d)
    (hc : c = decide (.committed ∈ states)) (hset : plan.Settled c d)
    (hreserved : d.reserved plan.path plan.jobId = none) (hp : Private plan.jobId d d')
    (hrecorded : d'.history.recorded = d.history.recorded) (hjournal : d'.journal plan.jobId = none) :
    plan.Gone c d' where
  journal := hjournal
  reserved := by simpa [Disk.reserved, hp.root] using hreserved
  verified := by
    have hverified := hj.verified
    simpa [localVerifyRootIdentity, hp.root] using hverified
  recorded := by rw [hrecorded, hj.recorded]; exact hc
  settled := hset.of_root hp.root

theorem wp_removeJob {c : Bool} {states : List JournalState} (hj : plan.Journaled states d)
    (hc : c = decide (.committed ∈ states)) (hset : plan.Settled c d)
    (hreserved : d.reserved plan.path plan.jobId = none) :
    Wp Quiet ((removeJob plan.jobId).run : JobProg Unit)
      (fun _ d' => plan.Gone c d' ∧ d'.hasJob plan.jobId = false)
      (fun _ => plan.Left c states) (plan.Left c states) d := by
  obtain ⟨directory, hdirectory, hjournal⟩ := hj.directory
  have hjob := Disk.hasJob_of_directory hdirectory
  have hgone : plan.Gone c (d.withoutJob plan.jobId) :=
    hj.gone hc hset hreserved (private_removeJob_done d plan.jobId) rfl Disk.journal_withoutJob
  have hpart : ∀ n, plan.Left c states (removeJob.removePart plan.jobId n d) := by
    intro n
    have hp := private_removeJob_part d plan.jobId n
    have hrecorded : (removeJob.removePart plan.jobId n d).history.recorded = d.history.recorded := by
      simp only [removeJob.removePart, hdirectory]
      rfl
    obtain hsame | hnone := dropped_removeJob_part (d := d) n
    · refine .inl ⟨⟨hsame.trans hj.journal, ?_, ?_⟩, hset.of_root hp.root⟩
      · rw [hrecorded]
        exact hj.recorded
      · have hverified := hj.verified
        simpa [localVerifyRootIdentity, hp.root] using hverified
    · exact .inr (hj.gone hc hset hreserved hp hrecorded hnone)
  apply Wp.step_quiet
  constructor
  · intro _ d' he
    simp only [removeJob] at he
    cases he
    exact ⟨hgone, Disk.hasJob_withoutJob⟩
  · intro e he
    simp [removeJob] at he
  · intro cut _
    cases cut with
    | before => exact .inl ⟨hj, hset⟩
    | within n => exact hpart n
    | after => exact .inl ⟨hj, hset⟩
  · intro cut _
    cases cut with
    | before => exact .inl ⟨hj, hset⟩
    | within n => exact hpart n
    | after => exact .inr hgone

theorem wp_cleanupPreparedJob {c : Bool} {states : List JournalState} (hj : plan.Journaled states d)
    (hc : c = decide (.committed ∈ states)) (hset : plan.Settled c d) :
    Wp Quiet (cleanupPreparedJob plan.job)
      (fun _ d' => plan.Gone c d' ∧ d'.hasJob plan.jobId = false)
      (fun _ => plan.Left c states) (plan.Left c states) d := by
  have hprivate : ∀ t, plan.Journaled states t → plan.Settled c t →
      t.reserved plan.path plan.jobId = none →
      Wp Quiet (do if ← look (·.hasJob plan.jobId) then (removeJob plan.jobId).run : JobProg Unit)
        (fun _ d' => plan.Gone c d' ∧ d'.hasJob plan.jobId = false)
        (fun _ => plan.Left c states) (plan.Left c states) t := by
    intro t hj hset hreserved
    obtain ⟨directory, hdirectory, -⟩ := hj.directory
    have hjob := Disk.hasJob_of_directory hdirectory
    refine Wp.bind (Wp.look ?_)
    simp only [hjob, if_true]
    exact wp_removeJob hj hc hset hreserved
  have hstart : plan.Left c states d := .inl ⟨hj, hset⟩
  refine Wp.runMutation (fun _ => hstart) hstart ?_
  have hleft : ∀ t, plan.Gone c t ∧ t.hasJob plan.jobId = false →
      (plan.Gone c t ∧ t.hasJob plan.jobId = false) ∧ (MaintenanceError → plan.Left c states t) ∧
        plan.Left c states t :=
    fun t ht => ⟨ht, fun _ => .inr ht.1, .inr ht.1⟩
  refine Wp.mono ?_ (fun _ t ht => hleft t ht) (fun _ _ h => h) (fun _ h => h)
  refine Wp.bind (Wp.look ?_)
  cases hreserved : d.reserved plan.path plan.jobId with
  | none =>
    have hnone : d.reserved plan.job.header.root.canonicalPath plan.job.header.jobId = none := hreserved
    simp only [hnone, Option.isSome_none, Bool.false_eq_true, if_false]
    exact hprivate d hj hset hreserved
  | some job =>
    have hsome : d.reserved plan.job.header.root.canonicalPath plan.job.header.jobId = some job :=
      hreserved
    simp only [hsome, Option.isSome_some, if_true]
    refine Wp.bind (Wp.lift (fun _ _ => ?_) (fun _ _ => hstart))
    have hpart : ∀ n, plan.Left c states (removeReserved.removePart plan.path plan.jobId n d) :=
      fun n => .inl ⟨hj.removePart n, hset.removePart n⟩
    refine Wp.bind (Wp.step_quiet ?_)
    constructor
    · intro _ d' he
      simp only [removeReserved] at he
      cases he
      exact hprivate _ (hj.setReserved none) hset.removeReserved (by simp [Plan.path, Plan.jobId])
    · intro e he
      simp [removeReserved] at he
    · intro cut _
      cases cut with
      | before => exact hstart
      | within n => exact hpart n
      | after => exact hstart
    · intro cut _
      cases cut with
      | before => exact hstart
      | within n => exact hpart n
      | after => exact .inl ⟨hj.setReserved none, hset.removeReserved⟩

/-! ### Committing -/

theorem Plan.Settled.allUndoable (h : plan.Settled false d) : plan.AllUndoable d := by
  simp only [Plan.Settled, Bool.false_eq_true, if_false] at h
  exact fun entry he => (h entry he).undoable

theorem Plan.Left.undone {states : List JournalState}
    (hstates : states = [.prepared, .committing] ∨
      states = [.prepared, .committing, .rollingBack]) (h : plan.Left false states d) :
    plan.Safe false d := by
  obtain ⟨hj, hset⟩ | hgone := h
  · exact .undo hj hstates hset.allUndoable
  · exact .gone hgone

theorem Plan.Left.prepared (h : plan.Left false [.prepared] d) : plan.Safe false d := by
  obtain ⟨hj, hset⟩ | hgone := h
  · exact .prepared hj hset
  · exact .gone hgone

theorem Plan.Left.committed (h : plan.Left true [.prepared, .committing, .committed] d) :
    plan.Safe true d := by
  obtain ⟨hj, hset⟩ | hgone := h
  · exact .committed hj hset
  · exact .gone hgone

/-- Rolling back, and then cleaning up. -/
theorem wp_undo (hs : plan.Sound) {states : List JournalState} (hj : plan.Journaled states d)
    (hstates : states = [.prepared, .committing] ∨
      states = [.prepared, .committing, .rollingBack]) (hd : plan.AllUndoable d) :
    Wp Quiet (rollbackEntries plan.job) (fun _ t => Wp Quiet (cleanupPreparedJob plan.job)
        (fun _ d' => plan.Gone false d' ∧ d'.hasJob plan.jobId = false)
        (fun _ => plan.Safe false) (plan.Safe false) t)
      (fun _ => plan.Safe false) (plan.Safe false) d := by
  have hc : false = decide (JournalState.committed ∈ states) := by
    obtain rfl | rfl := hstates <;> rfl
  refine (wp_rollbackEntries hs hj hd).mono ?_ ?_ ?_
  · intro _ t ⟨hj', hset⟩
    exact (wp_cleanupPreparedJob hj' hc hset).mono (fun _ _ h => h)
      (fun _ _ h => h.undone hstates) (fun _ h => h.undone hstates)
  · exact fun _ t ⟨hj', hundo⟩ => .undo hj' hstates hundo
  · exact fun t ⟨hj', hundo⟩ => .undo hj' hstates hundo

/-- After an error a commit never reports success, and leaves the old side of the commit. -/
theorem wp_rollBack (hs : plan.Sound) (htears : plan.job.policy.medium.tears = false)
    (hj : plan.Journaled [.prepared, .committing] d) (hd : plan.AllUndoable d)
    (error : MaintenanceError) (incomplete : String) :
    Wp Quiet (rollBack plan.job error incomplete) (fun _ _ => False) (fun _ => plan.Safe false)
      (plan.Safe false) d := by
  have happend := wp_appendState htears hj .rollingBack
  refine wp_rollBack_of (R := fun t => (plan.Journaled [.prepared, .committing] t ∨
    plan.Journaled [.prepared, .committing, .rollingBack] t) ∧ plan.AllUndoable t)
    (happend.mono ?_ ?_ ?_) ?_
  · rintro _ t ⟨hj', hroot⟩
    exact ⟨.inr hj', hd.of_root hroot⟩
  · rintro _ t ⟨hj', hroot⟩
    exact ⟨hj'.imp id And.right, hd.of_root hroot⟩
  · rintro t ⟨hj' | hj', hroot⟩
    · exact .undo hj' (.inl rfl) (hd.of_root hroot)
    · exact .undo hj' (.inr rfl) (hd.of_root hroot)
  · rintro t ⟨ht, hundo⟩
    have hrollback : Wp Quiet (do rollbackEntries plan.job; cleanupPreparedJob plan.job)
        (fun _ d' => plan.Gone false d' ∧ d'.hasJob plan.jobId = false) (fun _ => plan.Safe false)
        (plan.Safe false) t := by
      obtain ht | ht := ht
      · exact Wp.bind (wp_undo hs ht (.inl rfl) hundo)
      · exact Wp.bind (wp_undo hs ht (.inr rfl) hundo)
    exact hrollback.mono (fun _ _ h => .gone h.1) (fun _ _ h => h) (fun _ h => h)

theorem wp_verifyOriginalSnapshots (job : PreparedJob) (entries : List JournalEntry) :
    Wp Quiet (verifyOriginalSnapshots job entries) (fun _ t => t = d) (fun _ t => t = d)
      (fun t => t = d) d :=
  keeps_verifyOriginalSnapshots (I := fun t => t = d) entries d rfl

/-- A commit from a freshly prepared job: success means the new side, an error the old one. -/
theorem wp_commitFileSet (hs : plan.Sound) (htears : plan.job.policy.medium.tears = false)
    (hunknown : plan.job.policy.medium.unknown .committed = false)
    (hj : plan.Journaled [.prepared] d)
    (hready : ∀ entry ∈ plan.entries, plan.Ready entry (plan.view entry d)) :
    Wp Quiet (commitFileSet plan.job) (fun _ => plan.Safe true) (fun _ => plan.Safe false)
      (fun d' => ∃ c, plan.Safe c d') d := by
  have hsettled : plan.Settled false d := by
    simp only [Plan.Settled, Bool.false_eq_true, if_false]
    exact fun entry he => (hready entry he).1
  have hstart : plan.Safe false d := .prepared hj hsettled
  refine Wp.bind (Wp.inspect (fun _ _ => ?_) (fun _ _ => hstart))
  refine Wp.bind ((wp_verifyOriginalSnapshots plan.job _).mono ?_ (fun _ t h => h ▸ hstart)
    (fun t h => ⟨false, h ▸ hstart⟩))
  rintro _ _ rfl
  refine Wp.bind ((wp_appendState htears hj .committing).mono ?_ ?_ ?_)
  · intro _ t ⟨hjt, hroot⟩
    have hjt : plan.Journaled [.prepared, .committing] t := hjt
    have hready' : ∀ entry ∈ plan.entries, plan.Ready entry (plan.view entry t) :=
      fun entry he => Plan.view_of_root hroot ▸ hready entry he
    have hloop := wp_applyEntries hs (List.Subset.refl _) hs.nodup
      (hsettled.of_root hroot).allUndoable hready'
    have hmoves := moves_applyEntries hs.policy (List.Subset.refl plan.entries) t Moved.refl
    have hsafe : ∀ error incomplete t', plan.AllUndoable t' → plan.job.Moves plan.entries t t' →
        Wp Quiet (rollBack plan.job error incomplete) (fun _ => plan.Safe true)
          (fun _ => plan.Safe false) (fun d' => ∃ c, plan.Safe c d') t' := by
      intro error incomplete t' hundo hmoved
      exact (wp_rollBack hs htears (hjt.moved hmoved) hundo error incomplete).mono
        (fun _ _ h => h.elim) (fun _ _ h => h) (fun _ h => ⟨false, h⟩)
    refine Wp.bind (Wp.attempt ((hloop.and hmoves).mono ?_ ?_ ?_))
    · intro _ t' ⟨⟨hundo, happlied⟩, hmoved⟩
      have hjt' := hjt.moved hmoved
      have hnew : plan.Settled true t' := by
        simp only [Plan.Settled, if_true]
        exact fun entry he => (happlied entry he).1
      refine Wp.bind (Wp.attempt ((wp_appendState htears hjt' .committed).mono ?_ ?_ ?_))
      · intro _ t'' ⟨hjt'', hroot''⟩
        have hcleanup := wp_cleanupPreparedJob (c := true) hjt'' rfl (hnew.of_root hroot'')
        refine Wp.bind (Wp.attempt (hcleanup.mono ?_ ?_ ?_))
        · exact fun _ _ h => Wp.pure (.gone h.1)
        · exact fun _ _ h => Wp.pure h.committed
        · exact fun _ h => ⟨true, h.committed⟩
      · intro _ t'' ⟨hjt'', hroot''⟩
        -- the record is not durable: the journal still says Committing
        simp only [hunknown, Bool.false_eq_true, false_and, or_false] at hjt''
        exact (wp_rollBack hs htears hjt'' (hundo.of_root hroot'') _ _).mono (fun _ _ h => h.elim)
          (fun _ _ h => h) (fun _ h => ⟨false, h⟩)
      · intro t'' ⟨hjt'', hroot''⟩
        obtain hjt'' | hjt'' := hjt''
        · exact ⟨false, .undo hjt'' (.inl rfl) (hundo.of_root hroot'')⟩
        · exact ⟨true, .committed hjt'' (hnew.of_root hroot'')⟩
    · exact fun _ t' ⟨hundo, hmoved⟩ => hsafe _ _ t' hundo hmoved
    · exact fun t' ⟨hundo, hmoved⟩ => ⟨false, .undo (hjt.moved hmoved) (.inl rfl) hundo⟩
  · intro _ t ⟨hjt, hroot⟩
    obtain hjt | ⟨-, hjt⟩ := hjt
    · exact .prepared hjt (hsettled.of_root hroot)
    · exact .undo hjt (.inl rfl) (hsettled.of_root hroot).allUndoable
  · intro t ⟨hjt, hroot⟩
    obtain hjt | hjt := hjt
    · exact ⟨false, .prepared hjt (hsettled.of_root hroot)⟩
    · exact ⟨false, .undo hjt (.inl rfl) (hsettled.of_root hroot).allUndoable⟩

/-! ### Recovering -/

section Recovery

variable [Unicode] [Deserialize JournalHeader] [Deserialize JournalStateRecord]
  [LawfulDeserialize JournalStateRecord]

/-- What recovery reads of a journal, when it can read it. -/
theorem Plan.Journaled.read {states : List JournalState} (hj : plan.Journaled states d)
    {bytes : Bytes} (hbytes : d.journal plan.jobId = some bytes) {header : JournalHeader}
    {state : JournalState} (h : readJournal bytes = .ok (header, state)) :
    header = plan.job.header ∧ states.getLast? = some state := by
  obtain rfl := Option.some.inj (hj.journal.symm.trans hbytes)
  exact readJournal_sound h

theorem wp_recoverState_own (hs : plan.Sound) (htears : plan.job.policy.medium.tears = false)
    {c : Bool} (hd : plan.Safe c d) {bytes : Bytes} (hbytes : d.journal plan.jobId = some bytes)
    {header : JournalHeader} {state : JournalState}
    (hread : readJournal bytes = .ok (header, state)) (result : RecoveryResult) :
    Wp Quiet (recoverState plan.job state result)
      (fun _ d' => plan.Gone c d' ∧ d'.hasJob plan.jobId = false) (fun _ => plan.Safe c)
      (plan.Safe c) d := by
  have hundone : ∀ {states t} (result' : RecoveryResult), plan.Journaled states t →
      (states = [.prepared, .committing] ∨ states = [.prepared, .committing, .rollingBack]) →
      plan.AllUndoable t →
      Wp Quiet (do rollbackEntries plan.job; cleanupPreparedJob plan.job; pure result')
        (fun _ d' => plan.Gone false d' ∧ d'.hasJob plan.jobId = false)
        (fun _ => plan.Safe false) (plan.Safe false) t := by
    intro states t result' hj hstates hundo
    refine Wp.bind ((wp_undo hs hj hstates hundo).mono ?_ (fun _ _ h => h) (fun _ h => h))
    intro _ _ hcleanup
    exact Wp.bind (hcleanup.mono (fun _ _ h => Wp.pure h) (fun _ _ h => h) (fun _ h => h))
  cases hd with
  | prepared hj hset =>
    obtain ⟨-, hlast⟩ := hj.read hbytes hread
    cases hlast
    refine Wp.bind ((wp_cleanupPreparedJob hj rfl hset).mono (fun _ _ h => Wp.pure h) ?_ ?_)
    · exact fun _ _ h => h.prepared
    · exact fun _ h => h.prepared
  | undo hj hstates hundo =>
    obtain ⟨-, hlast⟩ := hj.read hbytes hread
    obtain rfl | rfl := hstates
    · cases hlast
      refine Wp.bind ((wp_appendState htears hj .rollingBack).mono ?_ ?_ ?_)
      · intro _ t ⟨hjt, hroot⟩
        exact hundone _ hjt (.inr rfl) (hundo.of_root hroot)
      · intro _ t ⟨hjt, hroot⟩
        obtain hjt | ⟨-, hjt⟩ := hjt
        · exact .undo hjt (.inl rfl) (hundo.of_root hroot)
        · exact .undo hjt (.inr rfl) (hundo.of_root hroot)
      · intro t ⟨hjt, hroot⟩
        obtain hjt | hjt := hjt
        · exact .undo hjt (.inl rfl) (hundo.of_root hroot)
        · exact .undo hjt (.inr rfl) (hundo.of_root hroot)
    · cases hlast
      exact hundone _ hj (.inr rfl) hundo
  | committed hj hset =>
    obtain ⟨-, hlast⟩ := hj.read hbytes hread
    cases hlast
    refine Wp.bind ((wp_cleanupPreparedJob hj rfl hset).mono (fun _ _ h => Wp.pure h) ?_ ?_)
    · exact fun _ _ h => h.committed
    · exact fun _ h => h.committed
  | gone hgone =>
    rw [hgone.journal] at hbytes
    cases hbytes

theorem Plan.Safe.read {c : Bool} (hd : plan.Safe c d) {bytes : Bytes}
    (hbytes : d.journal plan.jobId = some bytes) {header : JournalHeader} {state : JournalState}
    (h : readJournal bytes = .ok (header, state)) : header = plan.job.header := by
  cases hd with
  | prepared hj _ => exact (hj.read hbytes h).1
  | undo hj _ _ => exact (hj.read hbytes h).1
  | committed hj _ => exact (hj.read hbytes h).1
  | gone hgone =>
    rw [hgone.journal] at hbytes
    cases hbytes

omit [Unicode] [Deserialize JournalHeader] [Deserialize JournalStateRecord]
  [LawfulDeserialize JournalStateRecord] in
theorem Plan.Safe.verified {c : Bool} (hd : plan.Safe c d) :
    localVerifyRootIdentity d plan.job.header.root = .ok () := by
  cases hd with
  | prepared hj _ => exact hj.verified
  | undo hj _ _ => exact hj.verified
  | committed hj _ => exact hj.verified
  | gone hgone => exact hgone.verified

omit [Unicode] [Deserialize JournalHeader] [Deserialize JournalStateRecord]
  [LawfulDeserialize JournalStateRecord] in
/-- A directory without a journal can only be what a cleanup left. -/
theorem Plan.Safe.gone_of_journal {c : Bool} (hd : plan.Safe c d)
    (hjournal : d.journal plan.jobId = none) : plan.Gone c d := by
  cases hd with
  | prepared hj _ => exact absurd hj.journal (by simp [hjournal])
  | undo hj _ _ => exact absurd hj.journal (by simp [hjournal])
  | committed hj _ => exact absurd hj.journal (by simp [hjournal])
  | gone hgone => exact hgone

omit [Unicode] [Deserialize JournalHeader] [Deserialize JournalStateRecord]
  [LawfulDeserialize JournalStateRecord] in
theorem Plan.Gone.dropped {c : Bool} (h : plan.Gone c d) (hp : Private plan.jobId d d')
    (hrecorded : d'.history.recorded = d.history.recorded) (hd : Dropped plan.jobId d d') :
    plan.Gone c d' where
  journal := by
    obtain hsame | hnone := hd
    · rw [hsame]; exact h.journal
    · exact hnone
  reserved := by simpa [Disk.reserved, hp.root] using h.reserved
  verified := by
    have hverified := h.verified
    simpa [localVerifyRootIdentity, hp.root] using hverified
  recorded := by rw [hrecorded]; exact h.recorded
  settled := h.settled.of_root hp.root

theorem wp_recoverDirectory_own (hs : plan.Sound) (htears : plan.job.policy.medium.tears = false)
    {c : Bool} (hd : plan.Safe c d) (result : RecoveryResult) :
    Wp Quiet (recoverDirectory plan.job.policy plan.jobId result) (fun _ => plan.Safe c)
      (fun _ => plan.Safe c) (plan.Safe c) d := by
  refine Wp.bind (Wp.look ?_)
  cases hdirectory : d.directory plan.jobId with
  | none => exact Wp.throw hd
  | some directory =>
    cases hjournal : directory.journal with
    | none =>
      simp only [hjournal]
      have hgone := hd.gone_of_journal (by simp [Disk.journal, hdirectory, hjournal])
      have hkeeps : Keeps Quiet (plan.Gone c) ((removeJob plan.jobId).run : JobProg Unit) := by
        have hpart : ∀ n t, plan.Gone c t → plan.Gone c (removeJob.removePart plan.jobId n t) := by
          intro n t ht
          refine ht.dropped (private_removeJob_part t _ n) ?_ (dropped_removeJob_part n)
          unfold removeJob.removePart
          split <;> rfl
        refine Keeps.step_quiet (fun t ht => ?_) hpart (fun cut t ht => ?_)
        · exact ht.dropped (private_removeJob_done t _) rfl (.inr Disk.journal_withoutJob)
        · cases cut with
          | before => exact ht
          | within n => exact hpart n t ht
          | after => exact ht
      exact Wp.bind ((hkeeps d hgone).mono (fun _ _ h => Wp.pure (.gone h)) (fun _ _ h => .gone h)
        (fun _ h => .gone h))
    | some bytes =>
      simp only [hjournal]
      have hbytes : d.journal plan.jobId = some bytes := by simp [Disk.journal, hdirectory, hjournal]
      refine Wp.bind (Wp.lift (fun read hread => ?_) (fun _ _ => hd))
      obtain ⟨header, state⟩ := read
      obtain rfl := hd.read hbytes hread
      have hname : plan.jobId = plan.job.header.jobId := rfl
      simp only [hname, ne_eq, not_true_eq_false, if_false]
      refine Wp.bind (Wp.look ?_)
      simp only [hd.verified]
      have hstate := wp_recoverState_own hs htears hd hbytes hread result
      exact hstate.mono (fun _ _ h => .gone h.1) (fun _ _ h => h) (fun _ h => h)

/-- What a recovery of other jobs leaves alone. -/
structure Plan.Same (plan : Plan) (d d' : Disk) : Prop where
  target : ∀ p, d'.target plan.path p = d.target plan.path p
  reserved : d'.reserved plan.path plan.jobId = d.reserved plan.path plan.jobId
  rootEntry : (d'.root plan.path).entry = (d.root plan.path).entry
  directory : d'.directory plan.jobId = d.directory plan.jobId
  recorded : d'.history.recorded plan.jobId = d.history.recorded plan.jobId

omit [Unicode] [Deserialize JournalHeader] [Deserialize JournalStateRecord]
  [LawfulDeserialize JournalStateRecord] in
theorem Plan.Safe.same {c : Bool} (hd : plan.Safe c d) (h : plan.Same d d') : plan.Safe c d' := by
  have hview : ∀ entry, plan.view entry d' = plan.view entry d := by
    intro entry
    have hbackup : d'.backup plan.path plan.jobId = d.backup plan.path plan.jobId := by
      funext index
      simp [Disk.backup, h.reserved]
    have hprepared : d'.prepared plan.path plan.jobId = d.prepared plan.path plan.jobId := by
      funext index
      simp [Disk.prepared, h.reserved]
    simp [Plan.view, h.target, hbackup, hprepared]
  have hsettled : ∀ {c}, plan.Settled c d → plan.Settled c d' := by
    intro c hset
    exact hset.of_views (fun entry => by rw [hview]) (fun entry hnone => by rw [hview]; exact hnone)
  have hverified : localVerifyRootIdentity d' plan.job.header.root = .ok () := by
    have hold := hd.verified
    have hentry : (d'.root plan.job.header.root.canonicalPath).entry =
      (d.root plan.job.header.root.canonicalPath).entry := h.rootEntry
    simpa [localVerifyRootIdentity, hentry] using hold
  have hjournal : d'.journal plan.jobId = d.journal plan.jobId := by
    simp [Disk.journal, h.directory]
  have hjournaled : ∀ {states}, plan.Journaled states d → plan.Journaled states d' :=
    fun hj => ⟨hjournal.trans hj.journal, h.recorded.trans hj.recorded, hverified⟩
  cases hd with
  | prepared hj hset => exact .prepared (hjournaled hj) (hsettled hset)
  | undo hj hstates hundo =>
    exact .undo (hjournaled hj) hstates fun entry he => hview entry ▸ hundo entry he
  | committed hj hset => exact .committed (hjournaled hj) (hsettled hset)
  | gone hgone =>
    refine .gone ⟨hjournal.trans hgone.journal, h.reserved.trans hgone.reserved, hverified, ?_,
      hsettled hgone.settled⟩
    rw [h.recorded]
    exact hgone.recorded

/-- What holds of everything but the job: only its targets have changed, apart from new
directories, and the jobs that other journals tell to undo are about other roots. -/
structure Plan.Intact (plan : Plan) (d : Disk) : Prop where
  around : ∀ p, ¬ Targeted plan.entries p → d.target plan.path p = plan.base p ∨
    plan.base p = none ∧ d.target plan.path p = some .directory
  elsewhere : ∀ name, name ≠ plan.jobId → ∀ header, d.unfinished name header →
    header.root.canonicalPath ≠ plan.path

omit [LawfulDeserialize JournalStateRecord] in
theorem Plan.Intact.frame (h : plan.Intact d) (hf : plan.job.Frames plan.entries d d') :
    plan.Intact d' where
  around p hp := by
    obtain hsame | ⟨hnone, hdirectory, -⟩ := hf.target p hp
    · have hsame' : d'.target plan.path p = d.target plan.path p := hsame
      rw [hsame']
      exact h.around p hp
    · have hnone' : d.target plan.path p = none := hnone
      obtain hbase | ⟨-, hdir⟩ := h.around p hp
      · exact .inr ⟨hbase ▸ hnone', hdirectory⟩
      · rw [hnone'] at hdir
        cases hdir
  elsewhere name hname header hu := by
    have hdirectory := hf.directory hname
    refine h.elsewhere name hname header ?_
    simpa [Disk.unfinished, Disk.journal, hdirectory] using hu

omit [LawfulDeserialize JournalStateRecord] in
theorem Plan.Intact.unfinished {name : String} (hd : plan.Intact d)
    (hf : ∀ other, other ≠ name → d'.directory other = d.directory other)
    (hu : ∀ header, d'.unfinished name header → d.unfinished name header) :
    ∀ other, other ≠ plan.jobId → ∀ header, d'.unfinished other header →
      header.root.canonicalPath ≠ plan.path := by
  intro other hother header hheader
  by_cases hname : other = name
  · subst hname
    exact hd.elsewhere other hother header (hu header hheader)
  · refine hd.elsewhere other hother header ?_
    have hdirectory := hf other hname
    simpa [Disk.unfinished, Disk.journal, hdirectory] using hheader

/-- Recovering one directory, the job's own or another one. -/
theorem keeps_recoverDirectory (hs : plan.Sound) (htears : plan.job.policy.medium.tears = false)
    (c : Bool) (name : String) (result : RecoveryResult) :
    Keeps Quiet (fun t => plan.Safe c t ∧ plan.Intact t)
      (recoverDirectory plan.job.policy name result) := by
  intro d ⟨hsafe, hintact⟩
  have hrecovered := wp_recoverDirectory hs.policy name result d
  by_cases hname : name = plan.jobId
  · subst hname
    have hframe : ∀ t, Recovered plan.jobId d t → plan.Intact t := by
      intro t ht
      obtain ⟨path, entries, hframe, hentries⟩ := ht.frame
      have helsewhere := hintact.unfinished (fun other ho => hframe.directory ho) ht.unfinished
      obtain rfl | ⟨header, ⟨bytes, state, hbytes, hread, -⟩, rfl, rfl⟩ := hentries
      · refine ⟨fun p hp => ?_, helsewhere⟩
        have hsame : t.target plan.path p = d.target plan.path p := by
          by_cases hpath : plan.path = path
          · obtain hsame | ⟨-, -, entry, he, -⟩ := hframe.target p (by simp [Targeted])
            · exact hpath ▸ hsame
            · simp at he
          · simp [Disk.target, hframe.root _ hpath]
        rw [hsame]
        exact hintact.around p hp
      · obtain rfl := hsafe.read hbytes hread
        exact hintact.frame hframe
    exact ((wp_recoverDirectory_own hs htears hsafe result).and hrecovered).mono
      (fun _ t h => ⟨h.1, hframe t h.2⟩) (fun _ t h => ⟨h.1, hframe t h.2⟩)
      (fun t h => ⟨h.1, hframe t h.2⟩)
  · have hother : ∀ t, Recovered name d t → plan.Safe c t ∧ plan.Intact t := by
      intro t ht
      obtain ⟨path, entries, hframe, hentries⟩ := ht.frame
      have hsame : plan.Same d t := by
        have hdirectory := hframe.directory (Ne.symm hname)
        have hrecorded := hframe.recorded _ (Ne.symm hname)
        by_cases hpath : plan.path = path
        · subst hpath
          obtain rfl | ⟨header, hu, hroot, -⟩ := hentries
          · refine ⟨fun p => ?_, hframe.reserved _ (Ne.symm hname), hframe.rootEntry, hdirectory,
              hrecorded⟩
            obtain hsame | ⟨-, -, entry, he, -⟩ := hframe.target p (by simp [Targeted])
            · exact hsame
            · simp at he
          · exact absurd hroot (hintact.elsewhere name hname header hu)
        · have hroot := hframe.root _ hpath
          exact ⟨fun p => by simp [Disk.target, hroot], by simp [Disk.reserved, hroot],
            by rw [hroot], hdirectory, hrecorded⟩
      refine ⟨hsafe.same hsame, fun p hp => ?_, ?_⟩
      · rw [hsame.target]
        exact hintact.around p hp
      · exact hintact.unfinished (fun other ho => hframe.directory ho) ht.unfinished
    exact hrecovered.mono (fun _ t => hother t) (fun _ t => hother t) (fun t => hother t)

/-- The directories come one after the other; the ones behind it are gone. -/
theorem wp_recoverDirectories (hs : plan.Sound) (htears : plan.job.policy.medium.tears = false)
    {c : Bool} {names : List String} (hsafe : plan.Safe c d) (hintact : plan.Intact d)
    (hjobs : ∀ name, name ∉ names → d.hasJob name = false) (result : RecoveryResult) :
    Wp Quiet (recoverDirectories plan.job.policy names result)
      (fun _ t => (plan.Safe c t ∧ plan.Intact t) ∧ ∀ name, t.hasJob name = false)
      (fun _ t => plan.Safe c t ∧ plan.Intact t) (fun t => plan.Safe c t ∧ plan.Intact t) d := by
  induction names generalizing d result with
  | nil => exact Wp.pure ⟨⟨hsafe, hintact⟩, fun name => hjobs name List.not_mem_nil⟩
  | cons name names ih =>
    have hkeeps := keeps_recoverDirectory hs htears c name result d ⟨hsafe, hintact⟩
    have hrecovered := wp_recoverDirectory hs.policy name result d
    have hdone := wp_recoverDirectory_done (d := d) hs.policy name result
    refine Wp.bind (((hkeeps.and hrecovered).and hdone).mono ?_ (fun _ _ h => h.1.1) (fun _ h => h.1.1))
    intro result' t ⟨⟨⟨hsafe', hintact'⟩, hr⟩, hgone⟩
    refine ih hsafe' hintact' ?_ result'
    intro other hother
    by_cases hname : other = name
    · exact hname ▸ hgone
    · obtain ⟨path, entries, hframe, -⟩ := hr.frame
      rw [hframe.hasJob other hname]
      exact hjobs other (by simp [hname, hother])

theorem wp_recoverIncomplete (hs : plan.Sound) (htears : plan.job.policy.medium.tears = false)
    {c : Bool} (hsafe : plan.Safe c d) (hintact : plan.Intact d) :
    Wp Quiet (recoverIncompleteWithPolicy plan.job.policy)
      (fun _ t => (plan.Safe c t ∧ plan.Intact t) ∧ ∀ name, t.hasJob name = false)
      (fun _ t => plan.Safe c t ∧ plan.Intact t) (fun t => plan.Safe c t ∧ plan.Intact t) d := by
  refine Wp.bind (Wp.look ?_)
  cases hjobs : d.jobs with
  | none => exact Wp.pure ⟨⟨hsafe, hintact⟩, fun name => by simp [Disk.hasJob, hjobs]⟩
  | some names =>
    refine wp_recoverDirectories hs htears hsafe hintact ?_ _
    intro name hname
    rw [List.mem_insertionSort] at hname
    simpa [Disk.hasJob, hjobs] using hname

omit [LawfulDeserialize JournalStateRecord] in
/-- Where no job is left a recovery does nothing. -/
theorem recoverIncomplete_idle (policy : Policy) (h : ∀ name, d.hasJob name = false)
    (sch : Schedule Intrusion) :
    recoverIncompleteWithPolicy policy d sch = (.ok {}, d, sch) := by
  cases hjobs : d.jobs with
  | none =>
    simp only [recoverIncompleteWithPolicy, bind, Prog.bind, look, hjobs]
    rfl
  | some names =>
    have hempty : names = [] := by
      apply List.eq_nil_iff_forall_not_mem.mpr
      intro name hname
      have := h name
      simp [Disk.hasJob, hjobs, hname] at this
    subst hempty
    simp only [recoverIncompleteWithPolicy, bind, Prog.bind, look, hjobs]
    rfl

end Recovery

end Se7en

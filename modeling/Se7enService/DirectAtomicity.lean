import Se7enService.DirectMoves
import Se7enService.ServiceTidy
set_option autoImplicit false

/-! A direct update at every point where it can be cut short: the files of the group are all
old or all new once a recovery is through, and none of them is missing meanwhile as long as
`ReplaceFileW` does not leave a name free. -/

namespace Se7en
open Faulty

/-- The plan of the same job with the moves of `Transaction`. -/
def Plan.plain (plan : Plan) : Plan :=
  { plan with job := { plan.job with
      policy := { plan.job.policy with usesAtomicReplacement := false } } }

namespace Plan

variable (plan : Plan)

/-- A file that was there is there, with the old or the new content. -/
def Standing (splits : Bool) (entry : JournalEntry) (v : View) : Prop :=
  plan.Undoable entry v ∧
    (splits = false → entry.original.isSome → v.node = plan.old entry ∨ v.node = plan.new entry)

def AllStanding (splits : Bool) (d : Disk) : Prop :=
  ∀ entry ∈ plan.entries, plan.Standing splits entry (plan.view entry d)

def Present (d : Disk) : Prop :=
  ∀ entry ∈ plan.entries, entry.original.isSome →
    (plan.view entry d).node = plan.old entry ∨ (plan.view entry d).node = plan.new entry

/-- What a fault may leave of a direct update. -/
def Stands (splits c : Bool) (d : Disk) : Prop :=
  plan.Safe c d ∧ (splits = false → plan.Present d)

end Plan

section Views

variable {plan : Plan} {entry : JournalEntry} {v w : View} {splits : Bool} {d d' : Disk}

theorem Plan.Restored.standing (h : plan.Restored entry v) : plan.Standing splits entry v :=
  ⟨h.undoable, fun _ _ => .inl h.1⟩

theorem Plan.Applied.standing (h : plan.Applied entry v) : plan.Standing splits entry v :=
  ⟨h.2, fun _ _ => .inr h.1⟩

theorem Plan.AllStanding.undoable (h : plan.AllStanding splits d) : plan.AllUndoable d :=
  fun entry he => (h entry he).1

theorem Plan.AllStanding.moved (hs : plan.plain.Sound) (h : plan.AllStanding splits d)
    (he : entry ∈ plan.entries) (hentry : plan.Standing splits entry (plan.view entry d'))
    (hm : plan.job.Moves [entry] d d') : plan.AllStanding splits d' := by
  intro other ho
  by_cases hne : other = entry
  · exact hne ▸ hentry
  · have hview : plan.view other d' = plan.view other d :=
      hs.view_other (List.cons_subset.mpr ⟨he, List.nil_subset _⟩) ho (by simpa using hne) hm
    rw [hview]
    exact h other ho

theorem Plan.AllStanding.of_root (h : plan.AllStanding splits d) (hroot : d'.root = d.root) :
    plan.AllStanding splits d' :=
  fun entry he => Plan.view_of_root hroot ▸ h entry he

theorem Plan.Settled.allStanding (h : plan.Settled false d) : plan.AllStanding splits d := by
  simp only [Plan.Settled, Bool.false_eq_true, if_false] at h
  exact fun entry he => (h entry he).standing

theorem Plan.Settled.present {c : Bool} (h : plan.Settled c d) : plan.Present d := by
  intro entry he _
  cases c with
  | true => exact .inr (h entry he)
  | false => exact .inl (h entry he).1

theorem Plan.AllStanding.stands {states : List JournalState} (h : plan.AllStanding splits d)
    (hj : plan.Journaled states d) (hstates : states = [.prepared, .committing] ∨
      states = [.prepared, .committing, .rollingBack]) : plan.Stands splits false d :=
  ⟨.undo hj hstates h.undoable, fun hsplits entry he => (h entry he).2 hsplits⟩

theorem Plan.Gone.stands {c : Bool} (h : plan.Gone c d) : plan.Stands splits c d :=
  ⟨.gone h, fun _ => h.settled.present⟩

theorem Plan.Settled.stands (h : plan.Settled false d) (hj : plan.Journaled [.prepared] d) :
    plan.Stands splits false d :=
  ⟨.prepared hj h, fun _ => h.present⟩

theorem Plan.Settled.standsCommitted (h : plan.Settled true d)
    (hj : plan.Journaled [.prepared, .committing, .committed] d) : plan.Stands splits true d :=
  ⟨.committed hj h, fun _ => h.present⟩

/-- A cleanup that was cut short leaves the files alone. -/
theorem Plan.Left.stands {c : Bool} {states : List JournalState} (h : plan.Left c states d)
    (hsafe : plan.Left c states d → plan.Safe c d) : plan.Stands splits c d :=
  ⟨hsafe h, fun _ => h.elim (fun h => h.2.present) fun h => h.settled.present⟩

theorem Plan.view_withDirectory {target : TargetPath}
    (hp : target <+: (targetPath entry.path).dropLast) :
    plan.view entry (d.withDirectory plan.path target) = plan.view entry d := by
  refine Plan.view_setNode_of_ne ?_ _
  rintro rfl
  have hlength := hp.length_le
  rw [List.length_dropLast] at hlength
  have hpos := targetPath_length entry.path
  omega

theorem Plan.view_leaf (hnone : d.reserved plan.path plan.jobId = none) :
    plan.view entry (d.setReserved plan.path plan.jobId (some .empty)) = plan.view entry d := by
  rw [Plan.view_setReserved]
  cases hindex : entry.preparedIndex <;>
    simp [Plan.view, Disk.backup, Disk.prepared, hnone, hindex, ReservedJob.empty]

theorem removeTargetFile_view {fault : MaintenanceError} {u : Unit}
    (h : (removeTargetFile plan.path plan.jobId (targetPath entry.path) fault).effect d =
      .ok (u, d')) : plan.view entry d' = { plan.view entry d with node := none } := by
  obtain ⟨hnone, rfl⟩ | ⟨file, -, rfl⟩ := removeTargetFile_ok h
  · simp only [Plan.view]
    congr 1
  · unfold Disk.deleted
    rw [Plan.view_logged, Plan.view_setNode]

end Views

namespace Direct

/-! ### One entry -/

section Entry

variable [Sha256] {context : DirectContext} {plan : Plan} {entry : JournalEntry} {v w : View}
  {d t : Disk} {u : Unit}

/-- Behind the call that gave the prepared file its name. -/
theorem takeTarget_new (howns : context.Owns plan.job) (he : entry ∈ plan.entries)
    (hprepared : (plan.view entry d).prepared = entry.preparedIndex >>= plan.payload)
    (h : (takeTarget plan.job.header.root plan.jobId .prepared entry.transactionIndex
      entry.path).effect d = .ok (u, t)) :
    (plan.view entry t).node = plan.new entry ∧
      (plan.view entry t).backup = (plan.view entry d).backup := by
  have hindex := howns.index entry he
  obtain ⟨file, hfile, hview⟩ := renamePrepared_ok hindex h
  have hpayload : plan.payload entry.transactionIndex = some file := by
    rw [hfile, hindex] at hprepared
    exact hprepared.symm
  rw [hview]
  exact ⟨by simp [Plan.new, hindex, hpayload], rfl⟩

theorem wp_atomicReplaceTarget (hs : plan.plain.Sound) (howns : context.Owns plan.job)
    (he : entry ∈ plan.entries) (hd : plan.Ready entry (plan.view entry d)) :
    Wp Quiet (context.toDirectPlatform.atomicReplaceTarget plan.job.header.root plan.jobId
        entry.transactionIndex entry.path entry.original)
      (fun done t => done = true ∧ plan.Applied entry (plan.view entry t))
      (fun _ t => plan.Standing context.splits entry (plan.view entry t))
      (fun t => plan.Standing context.splits entry (plan.view entry t)) d := by
  have hstart : plan.Standing context.splits entry (plan.view entry d) := hd.1.standing
  have hsame : ∀ t, plan.view entry t = plan.view entry d →
      plan.Standing context.splits entry (plan.view entry t) := fun t ht => ht ▸ hstart
  have hparent : ∀ (t : Disk) (target : TargetPath), plan.view entry t = plan.view entry d →
      t.target plan.path target = none → target <+: (targetPath entry.path).dropLast →
      plan.view entry (t.withDirectory plan.path target) = plan.view entry d :=
    fun t target ht _ hp => (Plan.view_withDirectory hp).trans ht
  refine Wp.bind (Wp.inspect (fun _ htarget => ?_) (fun _ _ => hstart))
  have haccepted := pathAllowed_accepted (DirectPlatform.target_ok htarget).2.2
  refine Wp.bind (Wp.inspect (fun current _ => ?_) (fun _ _ => hstart))
  by_cases hcurrent : current = entry.original
  · simp only [hcurrent, ne_eq, not_true_eq_false, if_false]
    have hbase := hs.original entry he
    cases horiginal : entry.original with
    | none =>
      simp only [Option.isSome_none, Bool.false_eq_true, if_false]
      refine Wp.bind (wp_moveAtomic Stable.quiet haccepted hparent (fun _ => hsame) hsame
        (fun t ht => ?_) rfl)
      refine Step.Meets.whole (Step.Whole.unless .plain) (fun _ t' heff => ?_)
        (fun _ => hsame t ht) (hsame t ht)
      have hprepared : (plan.view entry t).prepared = entry.preparedIndex >>= plan.payload :=
        ht ▸ hd.2
      have hnew := (takeTarget_new howns he hprepared (Step.unless_ok heff).2).1
      have happlied : plan.Applied entry (plan.view entry t') :=
        ⟨hnew, .inr (.inl ⟨horiginal, .inr hnew⟩)⟩
      exact ⟨Wp.pure ⟨rfl, happlied⟩, happlied.standing⟩
    | some original =>
      simp only [Option.isSome_some, if_true]
      have hsome : entry.original.isSome := by simp [horiginal]
      refine Wp.bind (wp_replaceAtomic Stable.quiet haccepted hparent
        (fun _ t ht hnone => (Plan.view_leaf hnone).trans ht) (fun _ => hsame) hsame
        (fun t ht => Step.Meets.followedBy (hsame t ht) (hsame t ht) ?_) rfl)
      intro _ t₁ _ t₂ hfree htake
      obtain ⟨file, hfile, hfreed⟩ := renameToBackup_ok hfree
      have hold : some (Node.file file) = plan.old entry := by
        rw [← hd.1.1, ← ht, hfile]
      have hprepared : (plan.view entry t₁).prepared = entry.preparedIndex >>= plan.payload := by
        rw [hfreed, ht]
        exact hd.2
      obtain ⟨hnew, hbackup⟩ := takeTarget_new howns he hprepared htake
      rw [hfreed] at hbackup
      have happlied : plan.Applied entry (plan.view entry t₂) := by
        refine ⟨hnew, .inr (.inr ⟨hsome, ?_, ?_, .inr hnew⟩)⟩ <;> rw [hbackup]
        · exact hold
        · rfl
      have hhalf : context.splits = true →
          plan.Standing context.splits entry (plan.view entry t₁) := by
        intro hsplits
        refine ⟨?_, fun h => by simp [hsplits] at h⟩
        rw [hfreed]
        exact .inr (.inr ⟨hsome, hold, rfl, .inl rfl⟩)
      exact ⟨Wp.pure ⟨rfl, happlied⟩, happlied.standing, fun h => ⟨hhalf h, hhalf h⟩⟩
  · simp only [ne_eq, hcurrent, not_false_eq_true, if_true]
    exact Wp.bind (Wp.throw hstart)

theorem leads_applyEntry (hs : plan.plain.Sound) (howns : context.Owns plan.job)
    (he : entry ∈ plan.entries) :
    plan.Leads entry (applyEntry plan.job entry) (plan.Ready entry) (plan.Applied entry)
      (plan.Standing context.splits entry) := by
  have hatomic : plan.job.policy.usesAtomicReplacement = true := by rw [howns.policy]; rfl
  have hreplace : plan.job.policy.atomicReplaceTarget =
      context.toDirectPlatform.atomicReplaceTarget := by rw [howns.policy]; rfl
  simp only [applyEntry, howns.replaces entry he, hatomic, hreplace, decide_true, Bool.and_self,
    if_true]
  refine Plan.Leads.mutation (fun d hd => ?_) (fun _ h => h.1.standing) (fun _ h => h.standing)
  refine Wp.bind ((wp_atomicReplaceTarget hs howns he hd).mono ?_ (fun _ _ h => h) (fun _ h => h))
  rintro _ t ⟨rfl, happlied⟩
  exact Wp.pure happlied

theorem wp_atomicRestoreBackup (hsome : entry.original.isSome)
    (hbackup : (plan.view entry d).backup.isSome)
    (hold : (plan.view entry d).backup.map Node.file = plan.old entry)
    (hd : plan.Standing context.splits entry (plan.view entry d)) :
    Wp Quiet (context.toDirectPlatform.atomicRestoreBackup plan.job.header.root plan.jobId
        entry.transactionIndex entry.path)
      (fun done t => done = true ∧ plan.Restored entry (plan.view entry t))
      (fun _ t => plan.Standing context.splits entry (plan.view entry t))
      (fun t => plan.Standing context.splits entry (plan.view entry t)) d := by
  have hsame : ∀ t, plan.view entry t = plan.view entry d →
      plan.Standing context.splits entry (plan.view entry t) := fun t ht => ht ▸ hd
  have hparent : ∀ (t : Disk) (target : TargetPath), plan.view entry t = plan.view entry d →
      t.target plan.path target = none → target <+: (targetPath entry.path).dropLast →
      plan.view entry (t.withDirectory plan.path target) = plan.view entry d :=
    fun t target ht _ hp => (Plan.view_withDirectory hp).trans ht
  -- where the backup has taken the name, the entry is restored
  have htaken : ∀ {t t' : Disk} {u : Unit}, (plan.view entry t).backup = (plan.view entry d).backup →
      (takeTarget plan.job.header.root plan.jobId .backup entry.transactionIndex
        entry.path).effect t = .ok (u, t') → plan.Restored entry (plan.view entry t') := by
    intro t t' u hsaved heff
    obtain ⟨file, hfile, hview⟩ := renameBackup_ok heff
    rw [hview]
    refine ⟨?_, fun _ => rfl⟩
    rw [← hold, ← hsaved, hfile]
    rfl
  refine Wp.bind (Wp.inspect (fun _ htarget => ?_) (fun _ _ => hd))
  have haccepted := pathAllowed_accepted (DirectPlatform.target_ok htarget).2.2
  refine Wp.bind (Wp.inspect (fun current _ => ?_) (fun _ _ => hd))
  cases current with
  | none =>
    simp only [Option.isSome_none, Bool.false_eq_true, if_false]
    refine Wp.bind (wp_moveAtomic Stable.quiet haccepted hparent (fun _ => hsame) hsame
      (fun t ht => ?_) rfl)
    refine Step.Meets.whole (Step.Whole.unless .plain) (fun _ t' heff => ?_)
      (fun _ => hsame t ht) (hsame t ht)
    have hrestored := htaken (by rw [ht]) (Step.unless_ok heff).2
    exact ⟨Wp.pure ⟨rfl, hrestored⟩, hrestored.standing⟩
  | some snapshot =>
    simp only [Option.isSome_some, if_true]
    refine Wp.bind (wp_replaceAtomic Stable.quiet haccepted hparent (fun h => by cases h)
      (fun _ => hsame) hsame (fun t ht => Step.Meets.followedBy (hsame t ht) (hsame t ht) ?_) rfl)
    intro _ t₁ _ t₂ hfree htake
    have hfreed := removeTargetFile_view hfree
    rw [ht] at hfreed
    have hrestored := htaken (by rw [hfreed]) htake
    have hhalf : context.splits = true →
        plan.Standing context.splits entry (plan.view entry t₁) := by
      intro hsplits
      refine ⟨?_, fun h => by simp [hsplits] at h⟩
      rw [hfreed]
      exact .inr (.inr ⟨hsome, hold, hbackup, .inl rfl⟩)
    exact ⟨Wp.pure ⟨rfl, hrestored⟩, hrestored.standing, fun h => ⟨hhalf h, hhalf h⟩⟩

theorem leads_rollbackEntry (hs : plan.plain.Sound) (hpolicy : plan.job.policy = context.policy)
    (he : entry ∈ plan.entries) :
    plan.Leads entry (rollbackEntry plan.job entry) (plan.Standing context.splits entry)
      (plan.Restored entry) (plan.Standing context.splits entry) := by
  have hatomic : plan.job.policy.usesAtomicReplacement = true := by rw [hpolicy]; rfl
  have hrestore : plan.job.policy.atomicRestoreBackup =
      context.toDirectPlatform.atomicRestoreBackup := by rw [hpolicy]; rfl
  intro d hd
  have hbase := hs.original entry he
  unfold rollbackEntry
  cases horiginal : entry.original with
  | none =>
    simp only [horiginal] at hbase ⊢
    have hnone : plan.Restored entry { plan.view entry d with node := none } :=
      ⟨hbase.symm, by simp [horiginal]⟩
    refine (leads_deleteExisting d rfl).mono (fun _ d' h => ?_) (fun _ d' h => ?_) (fun d' h => ?_)
    · rwa [h]
    · obtain h | h := h <;> rw [h]
      · exact hd
      · exact hnone.standing
    · obtain h | h := h <;> rw [h]
      · exact hd
      · exact hnone.standing
  | some original =>
    refine Wp.bind (Wp.inspect (fun found hfound => ?_) (fun _ _ => hd))
    have hbackup : (plan.view entry d).backup.isSome = found := localBackupExists_isSome hfound
    obtain hrestored | ⟨hnone, -⟩ | ⟨hsome, hold, hisSome, -⟩ := hd.1
    · have hfalse : found = false := by
        rw [← hbackup, hrestored.2 (by simp [horiginal])]
        rfl
      subst hfalse
      exact Wp.pure hrestored
    · simp [horiginal] at hnone
    · have htrue : found = true := by rw [← hbackup, hisSome]
      subst htrue
      simp only [restoreEntry, hatomic, hrestore, if_true]
      suffices hleads : plan.Leads entry _ (· = plan.view entry d) (plan.Restored entry)
          (plan.Standing context.splits entry) from
        hleads.mutation (fun _ h => h ▸ hd) (fun _ h => h.standing) d rfl
      intro t ht
      rw [← ht] at hd hold hisSome
      refine Wp.bind ((wp_atomicRestoreBackup hsome hisSome hold hd).mono ?_
        (fun _ _ h => h) (fun _ h => h))
      rintro _ t' ⟨rfl, hrestored⟩
      exact Wp.pure hrestored

end Entry

/-! ### Loops over the entries -/

section Loops

variable [Sha256] {context : DirectContext} {plan : Plan} {d : Disk}

theorem wp_rollbackReversed (hs : plan.plain.Sound) (hpolicy : plan.job.policy = context.policy)
    {rest : List JournalEntry} (hsub : rest ⊆ plan.entries) (hnodup : rest.Nodup)
    (hd : plan.AllStanding context.splits d) :
    Wp Quiet (rollbackReversed plan.job rest)
      (fun _ d' => plan.AllStanding context.splits d' ∧
        ∀ entry ∈ rest, plan.Restored entry (plan.view entry d'))
      (fun _ => plan.AllStanding context.splits) (plan.AllStanding context.splits) d := by
  induction rest generalizing d with
  | nil => exact Wp.pure ⟨hd, by simp⟩
  | cons entry rest ih =>
    obtain ⟨he, hrest⟩ := List.cons_subset.mp hsub
    obtain ⟨hnot, hnodup⟩ := List.nodup_cons.mp hnodup
    have hfirst := (leads_rollbackEntry hs hpolicy he).moves
      (fun _ => keeps_rollbackEntry hpolicy Stable.quiet fun _ _ ht h =>
        ht.rollbackChange List.mem_cons_self h) (hd entry he)
    refine Wp.bind (hfirst.mono ?_ ?_ ?_)
    · intro _ d₁ ⟨hrestored, hmoved⟩
      have hstanding := hd.moved hs he hrestored.standing hmoved
      have hmoves := @moves_rollbackReversed _ _ _ rest d₁ hpolicy d₁ .refl
      refine ((ih hrest hnodup hstanding).and hmoves).mono ?_ (fun _ _ h => h.1) (fun _ h => h.1)
      intro _ d₂ ⟨⟨hstanding₂, hdone⟩, hmoved₂⟩
      refine ⟨hstanding₂, ?_⟩
      rw [List.forall_mem_cons]
      refine ⟨?_, hdone⟩
      have hview : plan.view entry d₂ = plan.view entry d₁ := hs.view_other hrest he hnot hmoved₂
      rw [hview]
      exact hrestored
    · exact fun _ _ h => hd.moved hs he h.1 h.2
    · exact fun _ h => hd.moved hs he h.1 h.2

theorem wp_applyEntries (hs : plan.plain.Sound) (howns : context.Owns plan.job)
    {rest : List JournalEntry} (hsub : rest ⊆ plan.entries) (hnodup : rest.Nodup)
    (hd : plan.AllStanding context.splits d)
    (hready : ∀ entry ∈ rest, plan.Ready entry (plan.view entry d)) :
    Wp Quiet (applyEntries plan.job rest)
      (fun _ d' => plan.AllStanding context.splits d' ∧
        ∀ entry ∈ rest, plan.Applied entry (plan.view entry d'))
      (fun _ => plan.AllStanding context.splits) (plan.AllStanding context.splits) d := by
  induction rest generalizing d with
  | nil => exact Wp.pure ⟨hd, by simp⟩
  | cons entry rest ih =>
    obtain ⟨he, hrest⟩ := List.cons_subset.mp hsub
    obtain ⟨hnot, hnodup⟩ := List.nodup_cons.mp hnodup
    rw [List.forall_mem_cons] at hready
    have hfirst := (leads_applyEntry hs howns he).moves
      (fun _ => keeps_applyEntry howns.policy (howns.replaces entry he) (howns.index entry he)
        Stable.quiet fun _ _ ht h => ht.applyChange List.mem_cons_self h) hready.1
    refine Wp.bind (hfirst.mono ?_ ?_ ?_)
    · intro _ d₁ ⟨happlied, hmoved⟩
      have hstanding := hd.moved hs he happlied.standing hmoved
      have hready₁ : ∀ other ∈ rest, plan.Ready other (plan.view other d₁) := by
        intro other ho
        have hne : other ≠ entry := fun h => hnot (h ▸ ho)
        have hview : plan.view other d₁ = plan.view other d :=
          hs.view_other (List.cons_subset.mpr ⟨he, List.nil_subset _⟩) (hrest ho) (by simpa using hne)
            hmoved
        rw [hview]
        exact hready.2 other ho
      have hmoves := moves_applyEntries howns hrest d₁ Moved.refl
      refine ((ih hrest hnodup hstanding hready₁).and hmoves).mono ?_ (fun _ _ h => h.1)
        (fun _ h => h.1)
      intro _ d₂ ⟨⟨hstanding₂, hdone⟩, hmoved₂⟩
      refine ⟨hstanding₂, ?_⟩
      rw [List.forall_mem_cons]
      refine ⟨?_, hdone⟩
      have hview : plan.view entry d₂ = plan.view entry d₁ := hs.view_other hrest he hnot hmoved₂
      rw [hview]
      exact happlied
    · exact fun _ _ h => hd.moved hs he h.1 h.2
    · exact fun _ h => hd.moved hs he h.1 h.2

theorem wp_rollbackEntries (hs : plan.plain.Sound) (hpolicy : plan.job.policy = context.policy)
    {states : List JournalState} (hj : plan.Journaled states d)
    (hd : plan.AllStanding context.splits d) :
    Wp Quiet (rollbackEntries plan.job)
      (fun _ d' => plan.Journaled states d' ∧ plan.Settled false d')
      (fun _ d' => plan.Journaled states d' ∧ plan.AllStanding context.splits d')
      (fun d' => plan.Journaled states d' ∧ plan.AllStanding context.splits d') d := by
  refine Wp.bind (Wp.inspect (fun _ _ => ?_) (fun _ _ => ⟨hj, hd⟩))
  have hsub : plan.entries.reverse ⊆ plan.entries := List.reverse_subset.mpr (List.Subset.refl _)
  have hloop := wp_rollbackReversed hs hpolicy hsub (List.nodup_reverse.mpr hs.nodup) hd
  have hmoves := @moves_rollbackReversed _ _ _ plan.entries.reverse d hpolicy d .refl
  refine (hloop.and hmoves).mono ?_ ?_ ?_
  · intro _ d' ⟨⟨_, hdone⟩, hmoved⟩
    exact ⟨hj.moved hmoved, fun entry he => hdone entry (List.mem_reverse.mpr he)⟩
  · exact fun _ d' ⟨hstanding, hmoved⟩ => ⟨hj.moved hmoved, hstanding⟩
  · exact fun d' ⟨hstanding, hmoved⟩ => ⟨hj.moved hmoved, hstanding⟩

end Loops

/-! ### Jobs -/

section Jobs

variable [Sha256] {context : DirectContext} {plan : Plan} {d : Disk}

/-- Rolling back, and then cleaning up. -/
theorem wp_undo (hs : plan.plain.Sound) (hpolicy : plan.job.policy = context.policy)
    {states : List JournalState} (hj : plan.Journaled states d)
    (hstates : states = [.prepared, .committing] ∨
      states = [.prepared, .committing, .rollingBack])
    (hd : plan.AllStanding context.splits d) :
    Wp Quiet (rollbackEntries plan.job) (fun _ t => Wp Quiet (cleanupPreparedJob plan.job)
        (fun _ d' => plan.Gone false d' ∧ d'.hasJob plan.jobId = false)
        (fun _ => plan.Stands context.splits false) (plan.Stands context.splits false) t)
      (fun _ => plan.Stands context.splits false) (plan.Stands context.splits false) d := by
  have hc : false = decide (JournalState.committed ∈ states) := by
    obtain rfl | rfl := hstates <;> rfl
  have hleft : ∀ t, plan.Left false states t → plan.Stands context.splits false t :=
    fun t h => h.stands fun h => h.undone hstates
  refine (wp_rollbackEntries hs hpolicy hj hd).mono ?_ ?_ ?_
  · intro _ t ⟨hj', hset⟩
    exact (wp_cleanupPreparedJob hj' hc hset).mono (fun _ _ h => h) (fun _ => hleft) hleft
  · exact fun _ t ⟨hj', hstanding⟩ => hstanding.stands hj' hstates
  · exact fun t ⟨hj', hstanding⟩ => hstanding.stands hj' hstates

theorem wp_rollBack (hs : plan.plain.Sound) (hpolicy : plan.job.policy = context.policy)
    (htears : context.medium.tears = false) (hj : plan.Journaled [.prepared, .committing] d)
    (hd : plan.AllStanding context.splits d) (error : MaintenanceError) (incomplete : String) :
    Wp Quiet (rollBack plan.job error incomplete) (fun _ _ => False)
      (fun _ => plan.Stands context.splits false) (plan.Stands context.splits false) d := by
  have htears' : plan.job.policy.medium.tears = false := by rw [hpolicy]; exact htears
  have happend := wp_appendState htears' hj .rollingBack
  refine wp_rollBack_of (R := fun t => (plan.Journaled [.prepared, .committing] t ∨
    plan.Journaled [.prepared, .committing, .rollingBack] t) ∧
      plan.AllStanding context.splits t) (happend.mono ?_ ?_ ?_) ?_
  · rintro _ t ⟨hj', hroot⟩
    exact ⟨.inr hj', hd.of_root hroot⟩
  · rintro _ t ⟨hj', hroot⟩
    exact ⟨hj'.imp id And.right, hd.of_root hroot⟩
  · rintro t ⟨hj' | hj', hroot⟩
    · exact (hd.of_root hroot).stands hj' (.inl rfl)
    · exact (hd.of_root hroot).stands hj' (.inr rfl)
  · rintro t ⟨ht, hstanding⟩
    have hrollback : Wp Quiet (do rollbackEntries plan.job; cleanupPreparedJob plan.job)
        (fun _ d' => plan.Gone false d' ∧ d'.hasJob plan.jobId = false)
        (fun _ => plan.Stands context.splits false) (plan.Stands context.splits false) t := by
      obtain ht | ht := ht
      · exact Wp.bind (wp_undo hs hpolicy ht (.inl rfl) hstanding)
      · exact Wp.bind (wp_undo hs hpolicy ht (.inr rfl) hstanding)
    exact hrollback.mono (fun _ _ h => h.1.stands) (fun _ _ h => h) (fun _ h => h)

theorem wp_commitFileSet (hs : plan.plain.Sound) (howns : context.Owns plan.job)
    (htears : context.medium.tears = false)
    (hunknown : context.medium.unknown .committed = false)
    (hj : plan.Journaled [.prepared] d)
    (hready : ∀ entry ∈ plan.entries, plan.Ready entry (plan.view entry d)) :
    Wp Quiet (commitFileSet plan.job) (fun _ => plan.Stands context.splits true)
      (fun _ => plan.Stands context.splits false)
      (fun d' => ∃ c, plan.Stands context.splits c d') d := by
  have htears' : plan.job.policy.medium.tears = false := by rw [howns.policy]; exact htears
  have hunknown' : plan.job.policy.medium.unknown .committed = false := by
    rw [howns.policy]; exact hunknown
  have hsettled : plan.Settled false d := by
    simp only [Plan.Settled, Bool.false_eq_true, if_false]
    exact fun entry he => (hready entry he).1
  have hstart : plan.Stands context.splits false d := hsettled.stands hj
  refine Wp.bind (Wp.inspect (fun _ _ => ?_) (fun _ _ => hstart))
  refine Wp.bind ((wp_verifyOriginalSnapshots plan.job _).mono ?_ (fun _ t h => h ▸ hstart)
    (fun t h => ⟨false, h ▸ hstart⟩))
  rintro _ _ rfl
  refine Wp.bind ((wp_appendState htears' hj .committing).mono ?_ ?_ ?_)
  · intro _ t ht
    obtain ⟨hjt, hroot⟩ := ht
    have hjt : plan.Journaled [.prepared, .committing] t := hjt
    have hready' : ∀ entry ∈ plan.entries, plan.Ready entry (plan.view entry t) :=
      fun entry he => Plan.view_of_root hroot ▸ hready entry he
    have hloop := wp_applyEntries hs howns (List.Subset.refl _) hs.nodup
      (hsettled.of_root hroot).allStanding hready'
    have hmoves := moves_applyEntries howns (List.Subset.refl plan.entries) t Moved.refl
    have hback : ∀ error incomplete t', plan.AllStanding context.splits t' →
        plan.job.Moves plan.entries t t' →
        Wp Quiet (rollBack plan.job error incomplete) (fun _ => plan.Stands context.splits true)
          (fun _ => plan.Stands context.splits false)
          (fun d' => ∃ c, plan.Stands context.splits c d') t' := by
      intro error incomplete t' hstanding hmoved
      exact (wp_rollBack hs howns.policy htears (hjt.moved hmoved) hstanding error incomplete).mono
        (fun _ _ h => h.elim) (fun _ _ h => h) (fun _ h => ⟨false, h⟩)
    refine Wp.bind (Wp.attempt ((hloop.and hmoves).mono ?_ ?_ ?_))
    · intro _ t' ht'
      obtain ⟨⟨hstanding, happlied⟩, hmoved⟩ := ht'
      have hjt' := hjt.moved hmoved
      have hnew : plan.Settled true t' := by
        simp only [Plan.Settled, if_true]
        exact fun entry he => (happlied entry he).1
      refine Wp.bind (Wp.attempt ((wp_appendState htears' hjt' .committed).mono ?_ ?_ ?_))
      · intro _ t'' ht''
        obtain ⟨hjt'', hroot''⟩ := ht''
        have hcleanup := wp_cleanupPreparedJob (c := true) hjt'' rfl (hnew.of_root hroot'')
        refine Wp.bind (Wp.attempt (hcleanup.mono ?_ ?_ ?_))
        · exact fun _ _ h => Wp.pure h.1.stands
        · exact fun _ _ h => Wp.pure (h.stands Plan.Left.committed)
        · exact fun _ h => ⟨true, h.stands Plan.Left.committed⟩
      · intro _ t'' ht''
        obtain ⟨hjt'', hroot''⟩ := ht''
        -- the record is not durable: the journal still says Committing
        simp only [hunknown', Bool.false_eq_true, false_and, or_false] at hjt''
        exact (wp_rollBack hs howns.policy htears hjt'' (hstanding.of_root hroot'') _ _).mono
          (fun _ _ h => h.elim) (fun _ _ h => h) (fun _ h => ⟨false, h⟩)
      · intro t'' ht''
        obtain ⟨hjt'' | hjt'', hroot''⟩ := ht''
        · exact ⟨false, (hstanding.of_root hroot'').stands hjt'' (.inl rfl)⟩
        · exact ⟨true, (hnew.of_root hroot'').standsCommitted hjt''⟩
    · exact fun _ t' ht' => hback _ _ t' ht'.1 ht'.2
    · exact fun t' ht' => ⟨false, ht'.1.stands (hjt.moved ht'.2) (.inl rfl)⟩
  · intro _ t ht
    obtain ⟨hjt | ⟨-, hjt⟩, hroot⟩ := ht
    · exact (hsettled.of_root hroot).stands hjt
    · exact (hsettled.of_root hroot).allStanding.stands hjt (.inl rfl)
  · intro t ht
    obtain ⟨hjt | hjt, hroot⟩ := ht
    · exact ⟨false, (hsettled.of_root hroot).stands hjt⟩
    · exact ⟨false, (hsettled.of_root hroot).allStanding.stands hjt (.inl rfl)⟩

end Jobs

/-! ### Over the platform -/

section Platform

variable [Sha256] {context : DirectContext} {plan : Plan} {d : Disk}

abbrev Verified (root : RegisteredRoot) (d : Disk) : Prop := localVerifyRootIdentity d root = .ok ()

omit [Sha256] in
theorem Verified.of_rootEntry {root : RegisteredRoot} {d' : Disk} (h : Verified root d)
    (hentry : (d'.root root.canonicalPath).entry = (d.root root.canonicalPath).entry) :
    Verified root d' := by
  simpa [Verified, localVerifyRootIdentity, hentry] using h

omit [Sha256] in
theorem agrees_checked {α : Type} {A : Event Intrusion → Prop} {I : Disk → Prop}
    {check : Disk → Result Unit} {p q : JobProg α} (h : ∀ d, I d → check d = .ok ())
    (hpq : Agrees A I p q) : Agrees A I (do inspect check; p) q := by
  intro d hd sch hsch
  have hcheck := h d hd
  simp only [inspect, run_bind, run_look, hcheck, run_lift_ok]
  exact hpq d hd sch hsch

theorem DirectPlatform.bound_self (self : DirectPlatform) (d : Disk) :
    self.bound self.root d = localVerifyRootIdentity d self.root := by
  simp [bound, inner, TransactionPlatform.localPlatform]

theorem DirectPlatform.target_self {self : DirectPlatform} {path : String}
    (hallowed : pathAllowed path self.launcher = true) (hd : Verified self.root d) :
    self.target self.root path d = .ok () := by
  simp only [target, bound_self, hd, hallowed, Result.ok_bind]
  rfl

/-- Below its own root, on allowed paths, the platform does what the local one does. -/
theorem DirectPlatform.like (self : DirectPlatform) :
    self.platform.Like Quiet (Verified self.root) self.root
      (fun path => pathAllowed path self.launcher = true) where
  verifyRootIdentity d _ := self.bound_self d
  inspectTarget path hallowed d hd := by
    simp only [platform, target_self hallowed hd, Result.ok_bind]
    rfl
  renameTargetToBackup := rfl
  renamePreparedToTarget := rfl
  backupExists jobId index d hd := by
    have hbound : self.bound self.root d = .ok () := (self.bound_self d).trans hd
    simp only [platform, hbound, Result.ok_bind]
    rfl
  deleteTarget jobId path hallowed :=
    agrees_checked (fun _ hd => target_self hallowed hd) Agrees.refl
  restoreBackup := rfl
  cleanupJob jobId := agrees_checked (fun d hd => (self.bound_self d).trans hd) Agrees.refl

theorem steady (howns : context.Owns plan.job) (hroot : plan.job.header.root = context.root) :
    TransactionPlatform.Steady Quiet (Verified context.root) plan.job where
  checkpoint _ := keeps_checkpoint Stable.quiet _ _
  append _ := keeps_appendRecord Stable.quiet fun _ _ ht hc =>
    ht.of_rootEntry (by rw [hc.private.root])
  apply entry he := by
    refine keeps_applyEntry howns.policy (howns.replaces entry he) (howns.index entry he)
      Stable.quiet fun t t' ht hc => ht.of_rootEntry ?_
    exact hroot ▸ (Moved.refl.applyChange he hc).rootEntry
  rollback entry he := by
    refine keeps_rollbackEntry howns.policy Stable.quiet fun t t' ht hc => ht.of_rootEntry ?_
    exact hroot ▸ (Moved.refl.rollbackChange he hc).rootEntry

end Platform

/-! ### What a job leaves alone -/

section Frames

variable [Sha256] {context : DirectContext} {prepared : PreparedJob} {d₀ : Disk}

theorem frame_rollbackEntries (hpolicy : prepared.policy = context.policy) :
    Keeps Quiet (prepared.Frames prepared.header.entries d₀) (rollbackEntries prepared) :=
  keeps_frame_of_moved fun _ => keeps_rollbackEntries hpolicy Stable.quiet
    fun _ he _ _ ht h => ht.rollbackChange he h

theorem frame_rollBack (hpolicy : prepared.policy = context.policy) (error : MaintenanceError)
    (incomplete : String) :
    Keeps Quiet (prepared.Frames prepared.header.entries d₀) (rollBack prepared error incomplete) := by
  refine Keeps.bind (Keeps.attempt (frame_appendState _)) fun _ => ?_
  refine Keeps.bind (Keeps.attempt (Keeps.bind (frame_rollbackEntries hpolicy) fun _ =>
    frame_cleanupPreparedJob)) fun outcome => ?_
  cases outcome <;> exact Keeps.throw _

theorem frame_commitFileSet (howns : context.Owns prepared) :
    Keeps Quiet (prepared.Frames prepared.header.entries d₀) (commitFileSet prepared) := by
  refine Keeps.bind (keeps_inspect _) fun _ => ?_
  refine Keeps.bind (keeps_verifyOriginalSnapshots _) fun _ => ?_
  refine Keeps.bind (frame_appendState _) fun _ => ?_
  refine Keeps.bind (Keeps.attempt (keeps_frame_of_moved fun _ =>
    moves_applyEntries howns (List.Subset.refl _))) fun applied => ?_
  cases applied with
  | error e => exact frame_rollBack howns.policy _ _
  | ok =>
    refine Keeps.bind (Keeps.attempt (frame_appendState _)) fun committed => ?_
    cases committed with
    | error e => exact frame_rollBack howns.policy _ _
    | ok =>
      exact Keeps.bind (Keeps.attempt frame_cleanupPreparedJob) fun _ => Keeps.pure _

theorem frame_recoverState (hpolicy : prepared.policy = context.policy) (state : JournalState)
    (result : RecoveryResult) :
    Keeps Quiet (prepared.Frames prepared.header.entries d₀) (recoverState prepared state result) := by
  have hcleanup : ∀ result', Keeps Quiet (prepared.Frames prepared.header.entries d₀)
      (do cleanupPreparedJob prepared; pure result' : JobProg RecoveryResult) :=
    fun _ => Keeps.bind frame_cleanupPreparedJob fun _ => Keeps.pure _
  have hundo : ∀ result', Keeps Quiet (prepared.Frames prepared.header.entries d₀)
      (do rollbackEntries prepared; cleanupPreparedJob prepared; pure result' :
        JobProg RecoveryResult) :=
    fun _ => Keeps.bind (frame_rollbackEntries hpolicy) fun _ => hcleanup _
  cases state with
  | prepared => exact hcleanup _
  | committing => exact Keeps.bind (frame_appendState _) fun _ => hundo _
  | rollingBack => exact hundo _
  | committed => exact hcleanup _

end Frames

/-! ### Recovering -/

section Recovery

variable [Sha256] [Unicode] [Deserialize JournalHeader] [Deserialize JournalStateRecord]
  {context : DirectContext} {plan : Plan} {c : Bool} {d : Disk}

/-- The update is the only one, and around its targets there are only new directories. -/
structure Alone (plan : Plan) (splits c : Bool) (d : Disk) : Prop where
  stands : plan.Stands splits c d
  intact : plan.Intact d
  only : ∀ name, name ≠ plan.jobId → d.hasJob name = false
  bare : ∀ path name, path ≠ plan.path ∨ name ≠ plan.jobId →
    ∀ index, d.backup path name index = none

omit [Sha256] in
theorem Alone.framed {splits : Bool} {t : Disk} (h : Alone plan splits c d)
    (hf : plan.job.Frames plan.entries d t) {c' : Bool} (hstands : plan.Stands splits c' t) :
    Alone plan splits c' t where
  stands := hstands
  intact := h.intact.frame hf
  only name hname := (hf.hasJob name hname).trans (h.only name hname)
  bare path name hother index := by
    have hnone := h.bare path name hother index
    by_cases hpath : path = plan.path
    · subst hpath
      have hreserved : t.reserved plan.path name = d.reserved plan.path name :=
        hf.reserved name (hother.resolve_left fun hne => hne rfl)
      simpa [Disk.backup, hreserved] using hnone
    · simpa [Disk.backup, Disk.reserved, hf.root path hpath] using hnone

variable [LawfulDeserialize JournalStateRecord]

theorem wp_recoverState_own (hs : plan.plain.Sound) (hpolicy : plan.job.policy = context.policy)
    (htears : context.medium.tears = false) (hd : plan.Stands context.splits c d) {bytes : Bytes}
    (hbytes : d.journal plan.jobId = some bytes) {header : JournalHeader} {state : JournalState}
    (hread : readJournal bytes = .ok (header, state)) (result : RecoveryResult) :
    Wp Quiet (recoverState plan.job state result)
      (fun _ d' => plan.Gone c d' ∧ d'.hasJob plan.jobId = false)
      (fun _ => plan.Stands context.splits c) (plan.Stands context.splits c) d := by
  have htears' : plan.job.policy.medium.tears = false := by rw [hpolicy]; exact htears
  have hundone : ∀ {states t} (result' : RecoveryResult), plan.Journaled states t →
      (states = [.prepared, .committing] ∨ states = [.prepared, .committing, .rollingBack]) →
      plan.AllStanding context.splits t →
      Wp Quiet (do rollbackEntries plan.job; cleanupPreparedJob plan.job; pure result')
        (fun _ d' => plan.Gone false d' ∧ d'.hasJob plan.jobId = false)
        (fun _ => plan.Stands context.splits false) (plan.Stands context.splits false) t := by
    intro states t result' hj hstates hstanding
    refine Wp.bind ((wp_undo hs hpolicy hj hstates hstanding).mono ?_ (fun _ _ h => h) (fun _ h => h))
    intro _ _ hcleanup
    exact Wp.bind (hcleanup.mono (fun _ _ h => Wp.pure h) (fun _ _ h => h) (fun _ h => h))
  obtain ⟨hsafe, hpresent⟩ := hd
  cases hsafe with
  | prepared hj hset =>
    obtain ⟨-, hlast⟩ := hj.read hbytes hread
    cases hlast
    refine Wp.bind ((wp_cleanupPreparedJob hj rfl hset).mono (fun _ _ h => Wp.pure h) ?_ ?_)
    · exact fun _ _ h => h.stands Plan.Left.prepared
    · exact fun _ h => h.stands Plan.Left.prepared
  | undo hj hstates hundo =>
    have hstanding : plan.AllStanding context.splits d :=
      fun entry he => ⟨hundo entry he, fun hsplits => hpresent hsplits entry he⟩
    obtain ⟨-, hlast⟩ := hj.read hbytes hread
    obtain rfl | rfl := hstates
    · cases hlast
      refine Wp.bind ((wp_appendState htears' hj .rollingBack).mono ?_ ?_ ?_)
      · intro _ t ⟨hjt, hroot⟩
        exact hundone _ hjt (.inr rfl) (hstanding.of_root hroot)
      · intro _ t ⟨hjt, hroot⟩
        obtain hjt | ⟨-, hjt⟩ := hjt
        · exact (hstanding.of_root hroot).stands hjt (.inl rfl)
        · exact (hstanding.of_root hroot).stands hjt (.inr rfl)
      · intro t ⟨hjt, hroot⟩
        obtain hjt | hjt := hjt
        · exact (hstanding.of_root hroot).stands hjt (.inl rfl)
        · exact (hstanding.of_root hroot).stands hjt (.inr rfl)
    · cases hlast
      exact hundone _ hj (.inr rfl) hstanding
  | committed hj hset =>
    obtain ⟨-, hlast⟩ := hj.read hbytes hread
    cases hlast
    refine Wp.bind ((wp_cleanupPreparedJob hj rfl hset).mono (fun _ _ h => Wp.pure h) ?_ ?_)
    · exact fun _ _ h => h.stands Plan.Left.committed
    · exact fun _ h => h.stands Plan.Left.committed
  | gone hgone =>
    rw [hgone.journal] at hbytes
    cases hbytes

/-- The direct policy and its root, on a job whose paths it allows. -/
structure Covered (context : DirectContext) (job : PreparedJob) : Prop where
  owns : context.Owns job
  root : job.header.root = context.root
  paths : TransactionPlatform.Covers (fun path => pathAllowed path context.launcher = true) job

omit [Unicode] [Deserialize JournalHeader] [Deserialize JournalStateRecord]
  [LawfulDeserialize JournalStateRecord] in
theorem Covered.like {job : PreparedJob} (h : Covered context job) :
    context.toDirectPlatform.platform.Like Quiet (Verified context.root) job.header.root
      (fun path => pathAllowed path context.launcher = true) := by
  rw [h.root]
  exact context.toDirectPlatform.like

omit [Sha256] [LawfulDeserialize JournalStateRecord] in
theorem wp_removeJob_gone {splits : Bool} (hd : Alone plan splits c d) (hgone : plan.Gone c d) :
    Wp Quiet ((removeJob plan.jobId).run : JobProg Unit)
      (fun _ t => Alone plan splits c t ∧ t.hasJob plan.jobId = false)
      (fun _ => Alone plan splits c) (Alone plan splits c) d := by
  have hprivate : ∀ t, Private plan.jobId d t → t.history.recorded = d.history.recorded →
      Dropped plan.jobId d t → Alone plan splits c t := fun t hp hrecorded hdropped =>
    hd.framed hp.frame (hgone.dropped hp hrecorded hdropped).stands
  have hpart : ∀ n, Alone plan splits c (removeJob.removePart plan.jobId n d) := by
    intro n
    refine hprivate _ (private_removeJob_part d _ n) ?_ (dropped_removeJob_part n)
    unfold removeJob.removePart
    split <;> rfl
  have hdone : Alone plan splits c (d.withoutJob plan.jobId) :=
    hprivate _ (private_removeJob_done d _) rfl (.inr Disk.journal_withoutJob)
  apply Wp.step_quiet
  constructor
  · intro _ t heff
    cases heff
    exact ⟨hdone, Disk.hasJob_withoutJob⟩
  · intro e heff
    cases heff
  · intro cut _
    cases cut with
    | before => exact hd
    | within n => exact hpart n
    | after => exact hd
  · intro cut _
    cases cut with
    | before => exact hd
    | within n => exact hpart n
    | after => exact hdone

theorem wp_recoverDirectory_own (hs : plan.plain.Sound) (hcovered : Covered context plan.job)
    (htears : context.medium.tears = false) (hd : Alone plan context.splits c d)
    (result : RecoveryResult) :
    Wp Quiet (context.toDirectPlatform.platform.recoverDirectory context.policy plan.jobId result)
      (fun _ t => Alone plan context.splits c t ∧ t.hasJob plan.jobId = false)
      (fun _ => Alone plan context.splits c) (Alone plan context.splits c) d := by
  refine Wp.bind (Wp.look ?_)
  cases hdirectory : d.directory plan.jobId with
  | none => exact Wp.throw hd
  | some directory =>
    cases hjournal : directory.journal with
    | none =>
      simp only [hjournal]
      have hgone := hd.stands.1.gone_of_journal (by simp [Disk.journal, hdirectory, hjournal])
      exact Wp.bind ((wp_removeJob_gone hd hgone).mono (fun _ _ h => Wp.pure h) (fun _ _ h => h)
        (fun _ h => h))
    | some bytes =>
      simp only [hjournal]
      have hbytes : d.journal plan.jobId = some bytes := by simp [Disk.journal, hdirectory, hjournal]
      refine Wp.bind (Wp.lift (fun read hread => ?_) (fun _ _ => hd))
      obtain ⟨header, state⟩ := read
      obtain rfl := hd.stands.1.read hbytes hread
      have hname : plan.jobId = plan.job.header.jobId := rfl
      simp only [hname, ne_eq, not_true_eq_false, if_false]
      have hverified : Verified context.root d := hcovered.root ▸ hd.stands.1.verified
      have hbound : context.toDirectPlatform.platform.verifyRootIdentity plan.job.header.root d =
          .ok () := by
        rw [hcovered.root]
        exact (context.toDirectPlatform.bound_self d).trans hverified
      refine Wp.bind (Wp.look ?_)
      simp only [hbound]
      have hjob : ({ header := plan.job.header, policy := context.policy } : PreparedJob) =
          plan.job := by rw [← hcovered.owns.policy]
      rw [hjob]
      have hsteady := steady hcovered.owns hcovered.root
      have hagrees := TransactionPlatform.agrees_recoverState hcovered.like hsteady hcovered.paths
        state result
      have hstate := wp_recoverState_own hs hcovered.owns.policy htears hd.stands hbytes hread result
      have hframe := frame_recoverState hcovered.owns.policy state result d Frame.refl
      exact hagrees.wp hverified ((hstate.and hframe).mono
        (fun _ _ h => ⟨hd.framed h.2 h.1.1.stands, h.1.2⟩) (fun _ _ h => hd.framed h.2 h.1)
        (fun _ h => hd.framed h.2 h.1))

theorem wp_recoverDirectories (hs : plan.plain.Sound) (hcovered : Covered context plan.job)
    (htears : context.medium.tears = false) {names : List String}
    (hnames : ∀ name ∈ names, name = plan.jobId) (hd : Alone plan context.splits c d)
    (hgone : names = [] → d.hasJob plan.jobId = false) (result : RecoveryResult) :
    Wp Quiet (context.toDirectPlatform.platform.recoverDirectories context.policy names result)
      (fun _ t => Alone plan context.splits c t ∧ t.hasJob plan.jobId = false)
      (fun _ => Alone plan context.splits c) (Alone plan context.splits c) d := by
  induction names generalizing d result with
  | nil => exact Wp.pure ⟨hd, hgone rfl⟩
  | cons name names ih =>
    rw [List.forall_mem_cons] at hnames
    obtain ⟨rfl, hnames⟩ := hnames
    refine Wp.bind ((wp_recoverDirectory_own hs hcovered htears hd result).mono ?_
      (fun _ _ h => h) (fun _ h => h))
    exact fun result' t ht => ih hnames ht.1 (fun _ => ht.2) result'

omit [Sha256] [LawfulDeserialize JournalStateRecord] in
theorem Alone.congr {splits : Bool} {t : Disk} (h : Alone plan splits c d) (hroot : t.root = d.root)
    (hhasJob : ∀ name, t.hasJob name = d.hasJob name)
    (hdirectory : ∀ name, t.directory name = d.directory name) (hhistory : t.history = d.history) :
    Alone plan splits c t where
  stands := by
    refine ⟨h.stands.1.same ⟨fun _ => ?_, ?_, by rw [hroot], hdirectory _, by rw [hhistory]⟩, ?_⟩
    · simp [Disk.target, hroot]
    · simp [Disk.reserved, hroot]
    · intro hsplits entry he hsome
      rw [Plan.view_of_root hroot]
      exact h.stands.2 hsplits entry he hsome
  intact := by
    refine ⟨fun p hp => ?_, fun name hname header hu => h.intact.elsewhere name hname header ?_⟩
    · have haround := h.intact.around p hp
      simpa [Disk.target, hroot] using haround
    · simpa [Disk.unfinished, Disk.journal, hdirectory name] using hu
  only name hname := (hhasJob name).trans (h.only name hname)
  bare path name hother index := by
    have hnone := h.bare path name hother index
    simpa [Disk.backup, Disk.reserved, hroot] using hnone

omit [Sha256] [LawfulDeserialize JournalStateRecord] in
theorem Alone.trimmed {splits : Bool} (h : Alone plan splits c d) (hjobs : d.jobs = some []) :
    Alone plan splits c { d with jobs := none } := by
  have hhasJob : ∀ name, ({ d with jobs := none } : Disk).hasJob name = d.hasJob name := by
    intro name
    simp [Disk.hasJob, hjobs]
  refine h.congr rfl hhasJob (fun name => ?_) rfl
  simp [Disk.directory, Disk.hasJob, hjobs]

omit [Sha256] [Unicode] [Deserialize JournalHeader] [Deserialize JournalStateRecord]
  [LawfulDeserialize JournalStateRecord] in
theorem wp_trimEmptyJobs {I : Disk → Prop} (hd : I d)
    (htrim : d.jobs = some [] → I { d with jobs := none }) :
    Wp Quiet DirectContext.trimEmptyJobs (fun _ => I) (fun _ _ => False) I d := by
  refine Wp.bind (Wp.attempt (Wp.step_quiet (Step.Meets.whole .plain ?_ (fun _ => Wp.pure hd) hd)))
  intro _ t heff
  simp only [DirectContext.removeJobs] at heff
  split at heff
  · rename_i hjobs
    cases heff
    exact ⟨Wp.pure (htrim hjobs), htrim hjobs⟩
  · cases heff

omit [LawfulDeserialize JournalStateRecord] in
/-- What the directories are recovered to is what the whole recovery ends in. -/
theorem wp_recovery_of {I J : Disk → Prop} (hd : I d) (hnone : d.jobs = none → J d)
    (hsome : ∀ names, d.jobs = some names →
      Wp Quiet (context.toDirectPlatform.platform.recoverDirectories context.policy
        (names.insertionSort (· ≤ ·)) {}) (fun _ => J) (fun _ => I) I d)
    (htrim : ∀ t, J t → t.jobs = some [] → J { t with jobs := none }) (hJ : ∀ t, J t → I t) :
    Wp Quiet context.recovery (fun _ => J) (fun _ => I) I d := by
  have htrimmed : ∀ t, J t →
      Wp Quiet DirectContext.trimEmptyJobs (fun _ => J) (fun _ => I) I t := fun t ht =>
    (wp_trimEmptyJobs ht (htrim t ht)).mono (fun _ _ h => h) (fun _ _ h => h.elim) hJ
  have hrecover : Wp Quiet (do
      let _ ← context.toDirectPlatform.platform.recoverIncompleteWithPolicy context.policy
      DirectContext.trimEmptyJobs : JobProg Unit) (fun _ => J) (fun _ => I) I d := by
    refine Wp.bind (Wp.bind (Wp.look ?_))
    cases hjobs : d.jobs with
    | none => exact Wp.pure (htrimmed d (hnone hjobs))
    | some names =>
      exact (hsome names hjobs).mono (fun _ t ht => htrimmed t ht) (fun _ _ h => h) (fun _ h => h)
  refine Wp.bind (Wp.look ?_)
  split
  · refine Wp.bind (Wp.step_quiet (.of_ok .plain rfl ?_ hd hd hd))
    refine Wp.bind (Wp.step_quiet (.of_ok .plain rfl ?_ hd hd hd))
    split
    · exact Wp.bind (Wp.throw hd)
    · exact hrecover
  · exact hrecover

/-- Nothing but directories can be left of an update that a recovery is through with. -/
theorem wp_recovery (hs : plan.plain.Sound) (hcovered : Covered context plan.job)
    (htears : context.medium.tears = false) (hd : Alone plan context.splits c d) :
    Wp Quiet context.recovery
      (fun _ t => Alone plan context.splits c t ∧ t.hasJob plan.jobId = false)
      (fun _ => Alone plan context.splits c) (Alone plan context.splits c) d := by
  refine wp_recovery_of (J := fun t => Alone plan context.splits c t ∧ t.hasJob plan.jobId = false)
    hd ?_ ?_ ?_ (fun _ h => h.1)
  · exact fun hjobs => ⟨hd, by simp [Disk.hasJob, hjobs]⟩
  · intro names hjobs
    have hnames : ∀ name ∈ names.insertionSort (· ≤ ·), name = plan.jobId := by
      intro name hname
      rw [List.mem_insertionSort] at hname
      by_contra hne
      have hnone := hd.only name hne
      simp [Disk.hasJob, hjobs, hname] at hnone
    have hgone : names.insertionSort (· ≤ ·) = [] → d.hasJob plan.jobId = false := by
      intro hnil
      have hlength := congrArg List.length hnil
      rw [List.length_insertionSort] at hlength
      have hempty : names = [] := List.length_eq_zero_iff.mp hlength
      simp [Disk.hasJob, hjobs, hempty]
    exact wp_recoverDirectories hs hcovered htears hnames hd hgone {}
  · exact fun t ht hjobs => ⟨ht.1.trimmed hjobs, by simp [Disk.hasJob]⟩

/-- A commit that fails has been undone, unless it says that this is still to be done. -/
theorem wp_commit (hs : plan.plain.Sound) (hcovered : Covered context plan.job)
    (htears : context.medium.tears = false) (hunknown : context.medium.unknown .committed = false)
    (hj : plan.Journaled [.prepared] d) (hd : Alone plan context.splits false d)
    (hready : ∀ entry ∈ plan.entries, plan.Ready entry (plan.view entry d)) :
    Wp Quiet (context.commit plan.job) (fun _ => Alone plan context.splits true)
      (fun e t => Alone plan context.splits false t ∧ (t.hasJob plan.jobId = false ∨
        e = recoveryError "direct update rollback could not be completed"))
      (fun t => ∃ c, Alone plan context.splits c t) d := by
  have hverified : Verified context.root d := hcovered.root ▸ hd.stands.1.verified
  have hcommit := (TransactionPlatform.agrees_commitFileSet hcovered.like
    (steady hcovered.owns hcovered.root) hcovered.paths).wp hverified
    (wp_commitFileSet hs hcovered.owns htears hunknown hj hready)
  have hframe := (TransactionPlatform.agrees_commitFileSet hcovered.like
    (steady hcovered.owns hcovered.root) hcovered.paths).wp hverified
    (frame_commitFileSet hcovered.owns d Frame.refl)
  refine Wp.bind (Wp.attempt ((hcommit.and hframe).mono ?_ ?_ ?_))
  · intro result t h
    obtain ⟨hstands, hf⟩ := h
    have ht := hd.framed hf hstands
    refine Wp.bind ((wp_trimEmptyJobs ht ht.trimmed).mono ?_ (fun _ _ h => h.elim)
      (fun _ h => ⟨_, h⟩))
    exact fun _ t' ht' => Wp.lift (fun _ _ => ht') (fun _ h => by cases h)
  · intro e t h
    obtain ⟨hstands, hf⟩ := h
    refine Wp.bind (Wp.attempt ((wp_recovery hs hcovered htears (hd.framed hf hstands)).mono
      ?_ ?_ (fun _ h => ⟨_, h⟩)))
    · intro _ t' ht'
      refine Wp.bind ((wp_trimEmptyJobs (I := fun t => Alone plan context.splits false t ∧
        t.hasJob plan.jobId = false) ht' fun hjobs => ⟨ht'.1.trimmed hjobs, by
          simp [Disk.hasJob]⟩).mono ?_ (fun _ _ h => h.elim) (fun _ h => ⟨_, h.1⟩))
      exact fun _ t'' h => Wp.throw ⟨h.1, .inl h.2⟩
    · exact fun _ t' ht' => Wp.bind (Wp.throw ⟨ht', .inr rfl⟩)
  · intro t h
    obtain ⟨⟨c, hstands⟩, hf⟩ := h
    exact ⟨c, hd.framed hf hstands⟩

end Recovery

end Direct

end Se7en

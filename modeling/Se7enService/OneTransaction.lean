import Se7enService.Authorization
set_option autoImplicit false

/-! One maintenance transaction at a time, over whole runs of the service. -/

namespace Se7en.Windows
open Faulty

section Exclusion

variable [Externals] {policy : Policy}

/-- A job that was prepared and has not completed. -/
def ActiveJobState.Unfinished : ActiveJobState → Prop
  | .prepared _ | .committing _ => True
  | .completed _ => False

/-- The workers beside the active job; `preparations` is the number of prepare workers started. -/
structure Single (preparations : Nat) (s : ServiceState) : Prop where
  worker : ∀ (w : Nat) commit, s.commits[w]? = some commit → commit.channel = .empty →
    ∃ active, s.activeJob = some active ∧ active.state = .committing w
  serials : (s.commits.map (·.serial)).Nodup
  started : ∀ commit ∈ s.commits, commit.serial < preparations
  prepared : ∀ active job, s.activeJob = some active → active.state = .prepared job →
    active.serial < preparations ∧ active.serial ∉ s.commits.map (·.serial)

structure Daemon.Single (d : Daemon) : Prop where
  service : Windows.Single d.preparations d.service
  alone : ∀ inFlight, d.preparing = some inFlight → d.running = true ∧ d.service.activeJob = none ∧
    inFlight.serial < d.preparations ∧ inFlight.serial ∉ d.service.commits.map (·.serial) ∧
    ∀ outcome, inFlight.receiver = .sent (.ok outcome) → outcome.serial = inFlight.serial
  stopped : d.running = false → d.service.activeJob = none

/-! ### Requests -/

variable {n : Nat} {s t : ServiceState}

/-- A running commit is still waited for after a refresh. -/
theorem Single.refresh (h : Single n s) : Single n (refreshActiveJob s) := by
  have hsame := sameBut_refresh s
  constructor
  · intro w commit hcommit hempty
    rw [hsame.commits] at hcommit
    obtain ⟨active, hactive, hstate⟩ := h.worker w commit hcommit hempty
    have hchannel : s.channel w = .empty := by simp [ServiceState.channel, hcommit, hempty]
    have hrefresh : refreshActiveJob s = s := by
      simp [refreshActiveJob, hactive, hstate, hchannel, completedJob]
    rw [hrefresh]
    exact ⟨active, hactive, hstate⟩
  · rw [hsame.commits]
    exact h.serials
  · rw [hsame.commits]
    exact h.started
  · intro active job hactive hstate
    rw [hsame.commits]
    exact h.prepared active job (refresh_prepared hactive hstate) hstate

/-- Only a completed job is dropped. -/
theorem Single.drop (h : Single n s) : Single n (dropCompleted s) := by
  have hsame := (SameBut.refl s).drop
  constructor
  · intro w commit hcommit hempty
    rw [hsame.commits] at hcommit
    obtain ⟨active, hactive, hstate⟩ := h.worker w commit hcommit hempty
    have hdrop : dropCompleted s = s := by
      unfold dropCompleted
      split
      · rename_i hcompleted
        cases hactive.symm.trans hcompleted
        cases hstate
      · rfl
    rw [hdrop]
    exact ⟨active, hactive, hstate⟩
  · rw [hsame.commits]
    exact h.serials
  · rw [hsame.commits]
    exact h.started
  · intro active job hactive hstate
    rw [hsame.commits]
    exact h.prepared active job (drop_prepared hactive) hstate

theorem Single.congr (h : Single n s) (hcommits : t.commits = s.commits)
    (hactive : t.activeJob = s.activeJob) : Single n t where
  worker w commit hcommit hempty := by
    rw [hactive]
    exact h.worker w commit (hcommits ▸ hcommit) hempty
  serials := hcommits ▸ h.serials
  started := hcommits ▸ h.started
  prepared active job hsome hstate := by
    rw [hcommits]
    exact h.prepared active job (hactive ▸ hsome) hstate

/-- No commit runs while there is no unfinished job. -/
theorem Single.idle (h : Single n s) (hactive : s.activeJob = none) :
    ∀ commit ∈ s.commits, commit.channel ≠ .empty := by
  intro commit hmem hempty
  obtain ⟨w, hw⟩ := List.getElem?_of_mem hmem
  obtain ⟨active, hsome, -⟩ := h.worker w commit hw hempty
  cases hactive.symm.trans hsome

theorem Single.commit (h : Single n s) {active : ActiveJob} {job : PreparedJob}
    {committedBy : String} (hactive : s.activeJob = some active)
    (hstate : active.state = .prepared job) :
    Single n { s with
      activeJob := some { active with state := .committing s.commits.length }
      commits := s.commits ++ [{
        job, serial := active.serial, preparedBy := active.ownerSid, committedBy
        channel := .empty }] } := by
  obtain ⟨hstarted, hfresh⟩ := h.prepared active job hactive hstate
  constructor
  · intro w commit hcommit hempty
    refine ⟨_, rfl, ?_⟩
    by_cases hw : w < s.commits.length
    · rw [List.getElem?_append_left hw] at hcommit
      obtain ⟨other, hother, hcommitting⟩ := h.worker w commit hcommit hempty
      cases hactive.symm.trans hother
      cases hstate.symm.trans hcommitting
    · have hlength := (List.getElem?_eq_some_iff.mp hcommit).1
      simp only [List.length_append, List.length_singleton] at hlength
      obtain rfl : w = s.commits.length := by omega
      rfl
  · simp only [List.map_append, List.map_cons, List.map_nil]
    rw [List.nodup_append]
    refine ⟨h.serials, List.nodup_singleton _, ?_⟩
    intro a ha b hb
    obtain rfl := List.mem_singleton.mp hb
    rintro rfl
    exact hfresh ha
  · intro commit hmem
    rcases List.mem_append.mp hmem with hmem | hmem
    · exact h.started commit hmem
    · obtain rfl := List.mem_singleton.mp hmem
      exact hstarted
  · rintro _ other ⟨⟩ hprepared
    cases hprepared

theorem Processed.single {call : Call} {preparing : Bool} {request : Request}
    {outcome : Outcome MaintenanceError Dispatch}
    (h : Processed call s preparing request outcome t) (hs : Single n s) : Single n t := by
  have hrefresh := hs.refresh
  have hsame := sameBut_refresh s
  cases h with
  | kept hpassive ht =>
    rcases ht with rfl | rfl | rfl
    · exact hs
    · exact hrefresh
    · exact hrefresh.drop
  | registersRoot => exact hrefresh.congr rfl rfl
  | unregistersRoot => exact hrefresh.congr rfl rfl
  | registersScope => exact hrefresh.congr rfl rfl
  | unregistersScope => exact hrefresh.congr rfl rfl
  | applies => exact hrefresh.drop.congr rfl rfl
  | preparing => exact hrefresh.drop
  | committing caller active prepared _ hactive hstate =>
    have hcommit := @Single.commit _ n _ hrefresh active prepared caller.sid hactive hstate
    rw [hsame.commits] at hcommit
    exact hcommit

theorem Processed.noJob {call : Call} {preparing : Bool} {request : Request} {work : PrepareWork}
    (h : Processed call s preparing request (.ok (.prepare work)) t) : t.activeJob = none := by
  cases h with
  | kept hpassive => exact hpassive.elim
  | registersRoot caller verified root saved held file _ _ _ _ _ _ hended =>
    exact (hended.not_prepare rfl).elim
  | unregistersRoot caller root saved held file _ _ _ _ hended =>
    exact (hended.not_prepare rfl).elim
  | registersScope caller verified scope saved held file _ _ _ _ _ _ hended =>
    exact (hended.not_prepare rfl).elim
  | unregistersScope caller scope saved held file _ _ _ _ hended =>
    exact (hended.not_prepare rfl).elim
  | applies caller scope manifest previous registry _ _ _ _ _ _ hpassive => exact hpassive.elim
  | preparing caller root manifest previous _ _ hfree => exact hfree

/-- While a prepare worker runs, nothing but queries gets through. -/
theorem Processed.busy {call : Call} {request : Request}
    {outcome : Outcome MaintenanceError Dispatch}
    (h : Processed call s true request outcome t) :
    Passive outcome ∧ t.commits = s.commits ∧ t.log = s.log ∧
      (s.activeJob = none → t.activeJob = none) := by
  cases h with
  | kept hpassive ht =>
    have hsame := sameBut_refresh s
    refine ⟨hpassive, ?_⟩
    rcases ht with rfl | rfl | rfl
    · exact ⟨rfl, rfl, id⟩
    · refine ⟨hsame.commits, hsame.log, fun hnone => ?_⟩
      simp [refreshActiveJob, hnone]
    · refine ⟨hsame.drop.commits, hsame.drop.log, fun hnone => ?_⟩
      simp [dropCompleted, refreshActiveJob, hnone]

/-! ### The other steps -/

omit [Externals] in
theorem CommitWorker.abandon_channel (commit : CommitWorker) : commit.abandon.channel ≠ .empty := by
  unfold abandon
  split
  · simp
  · rename_i hchannel
    exact hchannel

omit [Externals] in
theorem Channel.deliver_ne_empty {α : Type} (outcome : Outcome MaintenanceError α) :
    Channel.deliver outcome ≠ .empty := by
  cases outcome <;> simp [Channel.deliver]

theorem Single.of_ended (h : Single n s) (hactive : t.activeJob = none)
    (hserials : t.commits.map (·.serial) = s.commits.map (·.serial))
    (hended : ∀ commit ∈ t.commits, commit.channel ≠ .empty) : Single n t where
  worker w commit hcommit hempty := (hended commit (List.mem_of_getElem? hcommit) hempty).elim
  serials := hserials ▸ h.serials
  started commit hmem := by
    have hserial := List.mem_map_of_mem (f := (·.serial)) hmem
    rw [hserials] at hserial
    obtain ⟨old, hold, heq⟩ := List.mem_map.mp hserial
    exact heq ▸ h.started old hold
  prepared active job hsome := by cases hactive.symm.trans hsome

omit [Externals] in
theorem abandon_serials (commits : List CommitWorker) :
    (commits.map CommitWorker.abandon).map (·.serial) = commits.map (·.serial) := by
  rw [List.map_map]
  refine List.map_congr_left fun commit _ => ?_
  obtain ⟨channel, hchannel⟩ := commit.abandon_eq
  simp [hchannel]

theorem Daemon.single_halt {d : Daemon} (h : Windows.Single d.preparations d.service) :
    d.halt.Single where
  service := by
    refine h.of_ended rfl (abandon_serials _) fun commit hmem => ?_
    obtain ⟨old, -, rfl⟩ := List.mem_map.mp hmem
    exact old.abandon_channel
  alone inFlight hpreparing := by cases hpreparing
  stopped _ := rfl

theorem Single.mono (h : Single n s) : Single (n + 1) s where
  worker := h.worker
  serials := h.serials
  started commit hmem := Nat.lt_succ_of_lt (h.started commit hmem)
  prepared active job hactive hstate :=
    ⟨Nat.lt_succ_of_lt (h.prepared active job hactive hstate).1,
      (h.prepared active job hactive hstate).2⟩

/-- A worker that has ended gives its channel up and nothing else. -/
theorem Single.endCommit (h : Single n s) {w : Nat} {job : PreparedJob} {serial : Nat}
    {preparedBy committedBy : String} {channel : Channel CommitResult} (hchannel : channel ≠ .empty)
    (hcommit : s.commits[w]? = some ⟨job, serial, preparedBy, committedBy, .empty⟩) :
    Single n { s with
      commits := s.commits.set w ⟨job, serial, preparedBy, committedBy, channel⟩ } := by
  have hserials : (s.commits.set w ⟨job, serial, preparedBy, committedBy, channel⟩).map (·.serial)
      = s.commits.map (·.serial) := by
    ext1 v
    simp only [List.getElem?_map, List.getElem?_set]
    by_cases hv : w = v
    · subst hv
      obtain ⟨hlt, hget⟩ := List.getElem?_eq_some_iff.mp hcommit
      simp [hlt, hget]
    · simp [hv]
  constructor
  · intro v commit hv hempty
    rw [List.getElem?_set] at hv
    by_cases heq : w = v
    · simp only [heq, if_true] at hv
      split at hv
      · cases hv
        exact (hchannel hempty).elim
      · cases hv
    · simp only [heq, if_false] at hv
      exact h.worker v commit hv hempty
  · exact hserials ▸ h.serials
  · intro commit hmem
    rcases List.mem_or_eq_of_mem_set hmem with hmem | rfl
    · exact h.started commit hmem
    · exact h.started ⟨job, serial, preparedBy, committedBy, .empty⟩ (List.mem_of_getElem? hcommit)
  · intro active job' hactive hstate
    rw [show ({ s with commits := s.commits.set w _ } : ServiceState).commits.map (·.serial)
      = s.commits.map (·.serial) from hserials]
    exact h.prepared active job' hactive hstate

theorem Finished.single {outcome : PreparedOutcome} {result : Outcome MaintenanceError Response}
    (h : Finished outcome s result t) (hs : Single n s) (hactive : s.activeJob = none)
    (hstarted : outcome.serial < n) (hfresh : outcome.serial ∉ s.commits.map (·.serial)) :
    Single n t := by
  cases h with
  | refused => exact hs
  | unsaved => exact hs.congr rfl rfl
  | prepared generations bytes =>
    constructor
    · intro w commit hcommit hempty
      exact (hs.idle hactive commit (List.mem_of_getElem? hcommit) hempty).elim
    · exact hs.serials
    · exact hs.started
    · rintro _ job ⟨⟩ _
      exact ⟨hstarted, hfresh⟩

theorem Replayed.jobs {jobs : List String} {outcome : Outcome MaintenanceError Unit}
    (h : Replayed jobs s outcome t) : t.commits = s.commits ∧ t.activeJob = s.activeJob := by
  cases h <;> exact ⟨rfl, rfl⟩

theorem Loaded.noJob {s t : ServiceState} (h : Loaded s t) (hs : s.activeJob = none) :
    t.activeJob = none :=
  h.activeJob.elim (fun heq => heq.trans hs) id

theorem Daemon.Stepped.single {d t : Daemon} {action : Action} (h : Stepped policy d action t)
    (hd : d.Single) : t.Single := by
  have hstopped : ∀ {s : ServiceState}, d.running = false → s.commits = d.service.commits →
      s.activeJob = none → Windows.Single d.preparations s := fun hrunning hcommits hnone =>
    hd.service.congr hcommits (hnone.trans (hd.stopped hrunning).symm)
  have hquiet : d.running = false → d.preparing = none := by
    intro hrunning
    cases hpreparing : d.preparing with
    | none => rfl
    | some inFlight => cases hrunning.symm.trans (hd.alone inFlight hpreparing).1
  cases h with
  | idle => exact hd
  | request hrunning hprocessed =>
    rename_i call request spawned sch outcome s
    have hservice := hprocessed.single hd.service
    have halone : ∀ inFlight, d.preparing = some inFlight → d.running = true ∧
        s.activeJob = none ∧ inFlight.serial < d.preparations ∧
        inFlight.serial ∉ s.commits.map (·.serial) ∧
        ∀ prepared, inFlight.receiver = .sent (.ok prepared) → prepared.serial = inFlight.serial := by
      intro inFlight hpreparing
      rw [hpreparing] at hprocessed
      obtain ⟨-, hcommits, -, hnone⟩ := hprocessed.busy
      obtain ⟨-, hactive, hrest⟩ := hd.alone inFlight hpreparing
      rw [hcommits]
      exact ⟨hrunning, hnone hactive, hrest⟩
    have hserved : Daemon.Single { d with service := s } :=
      ⟨hservice, halone, fun hstop => by cases hrunning.symm.trans hstop⟩
    cases outcome with
    | error e => exact hserved
    | crashed => exact Daemon.single_halt (d := { d with service := s }) hservice
    | ok dispatch =>
      cases dispatch with
      | respond response => exact hserved
      | prepare work =>
        cases spawned with
        | false => exact hserved
        | true =>
          refine ⟨hservice.mono, ?_, fun hstop => by cases hrunning.symm.trans hstop⟩
          rintro _ ⟨⟩
          refine ⟨hrunning, hprocessed.noJob, Nat.lt_succ_self _, fun hmem => ?_,
            fun prepared hreceiver => ?_⟩
          · obtain ⟨commit, hcommit, hserial⟩ := List.mem_map.mp hmem
            exact absurd (hservice.started commit hcommit) (Nat.not_lt.mpr hserial.ge)
          · cases hreceiver
  | released hrunning hpreparing =>
    exact ⟨hd.service, fun inFlight hnone => (by cases hnone), hd.stopped⟩
  | finished hrunning hpreparing hreceiver hfinished =>
    rename_i sch inFlight outcome result s
    obtain ⟨-, hactive, hstarted, hfresh, hserial⟩ := hd.alone inFlight hpreparing
    have hserial := hserial outcome hreceiver
    have hservice := hfinished.single hd.service hactive (hserial ▸ hstarted) (hserial ▸ hfresh)
    have hserved : Daemon.Single { d with service := s, preparing := none } :=
      ⟨hservice, fun inFlight hnone => (by cases hnone),
        fun hstop => by cases hrunning.symm.trans hstop⟩
    cases result with
    | ok response => exact hserved
    | error e => exact hserved
    | crashed => exact Daemon.single_halt (d := { d with service := s }) hservice
  | prepareEnded hpreparing hrun =>
    rename_i call sch rest work serial outcome disk
    obtain ⟨hrunning, hactive, hstarted, hfresh, -⟩ := hd.alone _ hpreparing
    refine ⟨hd.service, ?_, hd.stopped⟩
    rintro _ ⟨⟩
    refine ⟨hrunning, hactive, hstarted, hfresh, fun prepared hreceiver => ?_⟩
    cases outcome with
    | ok outcome =>
      cases hreceiver
      exact (prepared_of_run hrun).serial
    | error e => cases hreceiver
    | crashed => cases hreceiver
  | commitEnded hcommit hrun =>
    refine ⟨hd.service.endCommit (Channel.deliver_ne_empty _) hcommit, ?_, hd.stopped⟩
    intro inFlight hpreparing
    obtain ⟨-, hactive, -⟩ := hd.alone inFlight hpreparing
    exact (hd.service.idle hactive _ (List.mem_of_getElem? hcommit) rfl).elim
  | stopped => exact Daemon.single_halt hd.service
  | startFailed hrunning hfailed =>
    rename_i s disk
    have hservice : Windows.Single d.preparations s ∧ s.activeJob = none := by
      cases hfailed with
      | loading hload =>
        have hnone := hload.noJob (hd.stopped hrunning)
        exact ⟨hstopped hrunning hload.commits hnone, hnone⟩
      | recovering hload =>
        exact ⟨hstopped hrunning hload.commits hload.noJob, hload.noJob⟩
      | replaying hload _ hreplayed =>
        obtain ⟨hcommits, hactive⟩ := hreplayed.jobs
        have hnone := hactive.trans hload.noJob
        exact ⟨hstopped hrunning (hcommits.trans hload.commits) hnone, hnone⟩
    refine ⟨hservice.1, ?_, fun _ => hservice.2⟩
    intro inFlight hpreparing
    cases (hquiet hrunning).symm.trans hpreparing
  | started hrunning hload hrun hreplayed =>
    obtain ⟨hcommits, hactive⟩ := hreplayed.jobs
    refine ⟨hstopped hrunning (hcommits.trans hload.commits) (hactive.trans hload.noJob), ?_, nofun⟩
    intro inFlight hpreparing
    cases (hquiet hrunning).symm.trans hpreparing
  | outside => exact ⟨hd.service, hd.alone, hd.stopped⟩

theorem Daemon.Fresh.single {d : Daemon} (h : d.Fresh) : d.Single where
  service := {
    worker := by simp [h.commits]
    serials := by simp [h.commits]
    started := by simp [h.commits]
    prepared := by simp [h.activeJob] }
  alone inFlight hpreparing := by cases h.preparing.symm.trans hpreparing
  stopped _ := h.activeJob

theorem Daemon.Runs.single {gate : Daemon → Action → Prop} {d t : Daemon}
    (h : Runs policy gate d t) (hd : d.Fresh) : t.Single :=
  h.keeps hd.single fun _ _ _ _ hsingle hstep => hstep.single hsingle

/-! ### A prepared job stays -/

/-- What may become of a prepared job: it stays, it is handed to a commit worker, or the
service exits. -/
def Stays (active : ActiveJob) (job : PreparedJob) (s t : ServiceState) : Prop :=
  t.activeJob = some active ∨ ∃ committedBy,
    t.commits = s.commits ++ [⟨job, active.serial, active.ownerSid, committedBy, .empty⟩]

theorem refresh_of_prepared {active : ActiveJob} {job : PreparedJob}
    (hactive : s.activeJob = some active) (hstate : active.state = .prepared job) :
    refreshActiveJob s = s := by
  simp [refreshActiveJob, hactive, hstate]

theorem drop_of_prepared {active : ActiveJob} {job : PreparedJob}
    (hactive : s.activeJob = some active) (hstate : active.state = .prepared job) :
    dropCompleted s = s := by
  unfold dropCompleted
  split
  · rename_i hcompleted
    cases hactive.symm.trans hcompleted
    cases hstate
  · rfl

theorem Processed.stays {call : Call} {preparing : Bool} {request : Request}
    {outcome : Outcome MaintenanceError Dispatch}
    (h : Processed call s preparing request outcome t) {active : ActiveJob} {job : PreparedJob}
    (hactive : s.activeJob = some active) (hstate : active.state = .prepared job) :
    Stays active job s t := by
  have hrefresh := refresh_of_prepared hactive hstate
  have hdrop : dropCompleted (refreshActiveJob s) = s := by
    rw [hrefresh, drop_of_prepared hactive hstate]
  cases h with
  | kept hpassive ht =>
    rw [hdrop, hrefresh] at ht
    rcases ht with rfl | rfl | rfl <;> exact .inl hactive
  | registersRoot => exact .inl (hrefresh.symm ▸ hactive)
  | unregistersRoot => exact .inl (hrefresh.symm ▸ hactive)
  | registersScope => exact .inl (hrefresh.symm ▸ hactive)
  | unregistersScope => exact .inl (hrefresh.symm ▸ hactive)
  | applies caller scope manifest previous registry _ _ hfree =>
    rw [hdrop] at hfree
    cases hfree.symm.trans hactive
  | preparing caller root manifest previous _ _ hfree =>
    rw [hdrop] at hfree
    cases hfree.symm.trans hactive
  | committing caller other prepared _ hother hprepared =>
    rw [hrefresh] at hother
    cases hother.symm.trans hactive
    cases hprepared.symm.trans hstate
    exact .inr ⟨caller.sid, rfl⟩

theorem Daemon.Stepped.stays {d t : Daemon} {action : Action} (h : Stepped policy d action t)
    (hd : d.Single) {active : ActiveJob} {job : PreparedJob}
    (hactive : d.service.activeJob = some active) (hstate : active.state = .prepared job) :
    Stays active job d.service t.service ∨ t.running = false := by
  cases h with
  | idle => exact .inl (.inl hactive)
  | request hrunning hprocessed =>
    rename_i call request spawned sch outcome s
    have hstays := hprocessed.stays hactive hstate
    cases outcome with
    | error e => exact .inl hstays
    | crashed => exact .inr rfl
    | ok dispatch =>
      cases dispatch with
      | respond response => exact .inl hstays
      | prepare work => cases spawned <;> exact .inl hstays
  | released hrunning hpreparing =>
    cases (hd.alone _ hpreparing).2.1.symm.trans hactive
  | finished hrunning hpreparing hreceiver hfinished =>
    cases (hd.alone _ hpreparing).2.1.symm.trans hactive
  | prepareEnded => exact .inl (.inl hactive)
  | commitEnded => exact .inl (.inl hactive)
  | stopped => exact .inr rfl
  | startFailed hrunning => cases (hd.stopped hrunning).symm.trans hactive
  | started hrunning => cases (hd.stopped hrunning).symm.trans hactive
  | outside => exact .inl (.inl hactive)

/-- The owner of a prepared job gets it committed. -/
theorem processRequest_commitJob {call : Call} {caller : CallerIdentity} {active : ActiveJob}
    {job : PreparedJob} (hactive : s.activeJob = some active) (hstate : active.state = .prepared job)
    (hcaller : call.caller = .ok caller) (howner : caller.sid = active.ownerSid)
    (hstop : call.stopRequested = false) (hworker : call.workerStarted = true)
    (sch : Schedule Empty) :
    processRequest call (.commitJob active.jobId) false s sch =
      (.ok (.respond (.committing active.jobId)),
        { s with
          commits := s.commits ++ [⟨job, active.serial, active.ownerSid, caller.sid, .empty⟩]
          activeJob := some { active with state := .committing s.commits.length } }, sch) := by
  have hauthorized : authorizeRequest (.commitJob active.jobId) caller s.roots s.registryScopes
      (some (active.jobId, active.ownerSid)) = .ok (.commitJob active.jobId) := by
    simp [authorizeRequest, authorizeOwnedJob, rejectIf, howner, bind, pure, Except.bind, Except.pure]
  simp [processRequest, bind, Prog.bind, lift, rejectIf, assign, look,
    refresh_of_prepared hactive hstate, hcaller, hactive, hauthorized, commitJob, hstop, hstate,
    hworker, pure, Prog.pure, ServiceState.withJob]

theorem Daemon.Single.step_commitJob {d : Daemon} (hd : d.Single) {call : Call}
    {caller : CallerIdentity} {active : ActiveJob} {job : PreparedJob}
    (hactive : d.service.activeJob = some active) (hstate : active.state = .prepared job)
    (hcaller : call.caller = .ok caller) (howner : caller.sid = active.ownerSid)
    (hstop : call.stopRequested = false) (hworker : call.workerStarted = true)
    (spawned : Bool) (sch : Schedule Empty) :
    (d.step policy (.request call (.commitJob active.jobId) spawned sch)).service.commits =
      d.service.commits ++ [⟨job, active.serial, active.ownerSid, caller.sid, .empty⟩] := by
  have hrunning : d.running = true := by
    cases hrunning : d.running with
    | true => rfl
    | false => cases (hd.stopped hrunning).symm.trans hactive
  have hpreparing : d.preparing = none := by
    cases hpreparing : d.preparing with
    | none => rfl
    | some inFlight => cases (hd.alone inFlight hpreparing).2.1.symm.trans hactive
  have hcommit := processRequest_commitJob hactive hstate hcaller howner hstop hworker sch
  simp [step, hrunning, serveRequest, hpreparing, hcommit, afterRequest]

/-! ### Applying a registry set -/

/-- A set is applied only where nothing else is going on. -/
theorem Processed.applies_alone {call : Call} {preparing : Bool} {request : Request}
    {outcome : Outcome MaintenanceError Dispatch} {caller : CallerIdentity}
    {scope : RegisteredRegistryScope} {manifest : VerifiedRegistrySet}
    (h : Processed call s preparing request outcome t)
    (hlog : t.log = s.log ++ [.applies caller scope manifest]) :
    preparing = false ∧ (dropCompleted (refreshActiveJob s)).activeJob = none := by
  have hsame := sameBut_refresh s
  have hnothing : t.log ≠ s.log := by
    rw [hlog]
    simp
  cases h with
  | kept hpassive ht =>
    rcases ht with rfl | rfl | rfl
    · exact (hnothing rfl).elim
    · exact (hnothing hsame.log).elim
    · exact (hnothing hsame.drop.log).elim
  | registersRoot => simp at hlog
  | unregistersRoot => exact (hnothing hsame.log).elim
  | registersScope => simp at hlog
  | unregistersScope => exact (hnothing hsame.log).elim
  | applies _ _ _ _ _ _ _ hfree => exact ⟨rfl, hfree⟩
  | preparing => exact (hnothing hsame.drop.log).elim
  | committing => exact (hnothing hsame.log).elim

/-- Only a completed job makes room. -/
theorem not_unfinished_of_dropped (h : (dropCompleted (refreshActiveJob s)).activeJob = none) :
    ∀ active, (refreshActiveJob s).activeJob = some active → ¬ active.state.Unfinished := by
  intro active hactive hunfinished
  unfold dropCompleted at h
  split at h
  · rename_i hcompleted
    cases hactive.symm.trans hcompleted
    exact hunfinished
  · cases h.symm.trans hactive

theorem Daemon.Stepped.applies_alone {d t : Daemon} {action : Action}
    (h : Stepped policy d action t) {caller : CallerIdentity} {scope : RegisteredRegistryScope}
    {manifest : VerifiedRegistrySet}
    (hlog : t.service.log = d.service.log ++ [.applies caller scope manifest]) :
    d.preparing = none ∧ (dropCompleted (refreshActiveJob d.service)).activeJob = none := by
  have hgrown : t.service.log ≠ d.service.log := by
    rw [hlog]
    simp
  cases h with
  | idle => exact (hgrown rfl).elim
  | request hrunning hprocessed =>
    rename_i call request spawned sch outcome s
    have halone : s.log = d.service.log ++ [.applies caller scope manifest] := by
      cases outcome with
      | error e => exact hlog
      | crashed => exact hlog
      | ok dispatch =>
        cases dispatch with
        | respond response => exact hlog
        | prepare work => cases spawned <;> exact hlog
    obtain ⟨hpreparing, hfree⟩ := hprocessed.applies_alone halone
    exact ⟨by simpa using hpreparing, hfree⟩
  | released => exact (hgrown rfl).elim
  | finished hrunning hpreparing hreceiver hfinished =>
    rename_i sch inFlight outcome result s
    have hadded : s.log = d.service.log ++ [.applies caller scope manifest] := by
      cases result <;> exact hlog
    cases hfinished with
    | refused => simp at hadded
    | unsaved => simp at hadded
    | prepared => simp at hadded
  | prepareEnded => exact (hgrown rfl).elim
  | commitEnded => exact (hgrown rfl).elim
  | stopped => exact (hgrown rfl).elim
  | startFailed hrunning hfailed =>
    cases hfailed with
    | loading hload => exact (hgrown hload.log).elim
    | recovering hload => exact (hgrown hload.log).elim
    | replaying hload _ hreplayed =>
      refine (hgrown (Eq.trans ?_ hload.log)).elim
      cases hreplayed <;> rfl
  | started hrunning hload hrun hreplayed =>
    refine (hgrown (Eq.trans ?_ hload.log)).elim
    cases hreplayed <;> rfl
  | outside => exact (hgrown rfl).elim

/-! ### Runs -/

/-- Of the prepare worker, an unfinished job with its commit worker, and the application of a
registry set there is one at most; no preparation is committed twice or lost. -/
structure Daemon.OneAtATime (policy : Policy) (t : Daemon) : Prop where
  preparing : t.preparing.isSome = true → t.service.activeJob = none ∧
    ∀ commit ∈ t.service.commits, commit.channel ≠ .empty
  committing : ∀ (w : Nat) commit, t.service.commits[w]? = some commit → commit.channel = .empty →
    ∃ active, t.service.activeJob = some active ∧ active.state = .committing w
  applying : ∀ action caller scope manifest,
    (t.step policy action).service.log = t.service.log ++ [.applies caller scope manifest] →
      t.preparing = none ∧ (∀ commit ∈ t.service.commits, commit.channel ≠ .empty) ∧
      ∀ active, (refreshActiveJob t.service).activeJob = some active → ¬ active.state.Unfinished
  finishing : ∀ inFlight, t.preparing = some inFlight →
    ∀ active, t.service.activeJob = some active → ¬ active.state.Unfinished
  once : (t.service.commits.map (·.serial)).Nodup
  stays : ∀ action active job, t.service.activeJob = some active → active.state = .prepared job →
    Stays active job t.service (t.step policy action).service ∨
      (t.step policy action).running = false
  available : ∀ active job, t.service.activeJob = some active → active.state = .prepared job →
    ∀ call caller spawned sch, call.caller = .ok caller → caller.sid = active.ownerSid →
      call.stopRequested = false → call.workerStarted = true →
        (t.step policy (.request call (.commitJob active.jobId) spawned sch)).service.commits =
          t.service.commits ++ [⟨job, active.serial, active.ownerSid, caller.sid, .empty⟩]

theorem runs_one_at_a_time (policy : Policy) {d t : Daemon} (hd : d.Fresh)
    (h : Daemon.Runs policy (fun _ _ => True) d t) : t.OneAtATime policy := by
  have hsingle := h.single hd
  have hfree : t.preparing.isSome = true → t.service.activeJob = none := by
    intro hsome
    obtain ⟨inFlight, hpreparing⟩ := Option.isSome_iff_exists.mp hsome
    exact (hsingle.alone inFlight hpreparing).2.1
  constructor
  · exact fun hsome => ⟨hfree hsome, hsingle.service.idle (hfree hsome)⟩
  · exact hsingle.service.worker
  · intro action caller scope manifest hlog
    obtain ⟨hpreparing, hdropped⟩ := (t.step_stepped policy action).applies_alone hlog
    refine ⟨hpreparing, ?_, not_unfinished_of_dropped hdropped⟩
    have hidle := hsingle.service.refresh.drop.idle hdropped
    rwa [(sameBut_refresh t.service).drop.commits] at hidle
  · intro inFlight hpreparing active hactive
    cases (hsingle.alone inFlight hpreparing).2.1.symm.trans hactive
  · exact hsingle.service.serials
  · exact fun action active job => (t.step_stepped policy action).stays hsingle
  · intro active job hactive hstate call caller spawned sch hcaller howner hstop hworker
    exact hsingle.step_commitJob hactive hstate hcaller howner hstop hworker spawned sch

end Exclusion

section Release

def releaseKeyring : Keyring where
  authenticodeSignerThumbprints := []
  kind := keyringKind
  releaseKeys := [⟨"release", String.ofList (List.replicate 64 '1')⟩]
  schema := keyringSchema
  signature := String.ofList (List.replicate 128 '2')
  version := 1

def releaseFileSet : FileSet where
  files := [⟨"a", "4bf5122f344554c53bde2ebb8cd2b7e3d1600ad631c385a5d7cce23c7785459a", 1⟩]
  generation := 1
  keyId := "release"
  kind := fileSetKind
  productId := "launcher"
  removeFiles := []
  schema := fileSetSchema
  signature := String.ofList (List.replicate 128 '3')

def textOf {α : Type} [Serialize α] (document : α) : Bytes :=
  match canonicalJson (toValue document) with
  | .ok bytes => bytes
  | .error _ => []

def releaseDocuments : SampleDocuments where
  keyrings := [releaseKeyring]
  fileSets := [releaseFileSet]
  digests := [
    (textOf releaseKeyring, [91, 205, 80, 160, 182, 78, 84, 254, 22, 8, 94, 29, 114, 31, 230, 99,
      184, 7, 13, 240, 24, 166, 60, 15, 107, 255, 248, 3, 65, 186, 86, 8]),
    (textOf releaseFileSet, [14, 240, 28, 243, 228, 243, 171, 246, 66, 85, 217, 180, 21, 101, 222,
      86, 102, 58, 49, 181, 143, 237, 142, 100, 160, 16, 195, 60, 96, 81, 64, 94]),
    ([1], [75, 245, 18, 47, 52, 69, 84, 197, 59, 222, 46, 187, 140, 210, 183, 227, 209, 96, 10, 214,
      49, 195, 133, 165, 215, 204, 226, 60, 119, 133, 69, 154])]

@[reducible] noncomputable def releaseExternals : Externals := releaseDocuments.externals

attribute [local instance] releaseExternals

def releaseCall : Call where
  caller := .ok administrator
  impersonated := .ok administrator
  opened := .ok (sampleRoot.canonicalPath, sampleRoot.identity)
  keyOpened := .ok ()
  manifest := .ok (textOf releaseFileSet)
  keyring := .ok (textOf releaseKeyring)
  stopRequested := false
  workerStarted := true

def releasePreparation : PrepareCall where
  stagingCaller := .ok administrator
  staging := fun _ => .ok [[1]]
  stamp := fun _ _ => (⟨1, Vector.replicate 16 2⟩, 2)
  launcherVerified := .ok ()
  policyReady := .ok ()

def releaseJobId : String :=
  "games-1-0ef01cf3e4f3abf64255d9b41565de56663a31b58fed8e64a010c33c6051405e"

def prepareRelease : List Action :=
  [.start [] (.ok ()) [] [],
    .request releaseCall (.registerRoot "games" "launcher" .launcher "") true [],
    .request releaseCall (.prepareFileSet "games" "" "C:\\Staging") true [],
    .prepareEnds releasePreparation [],
    .wake []]

noncomputable def beforeRelease : Daemon :=
  Daemon.fresh (fun _ _ => none) (sampleDisk fun _ => none)

noncomputable def releaseCommitting : Daemon :=
  beforeRelease.after quietPolicy
    (prepareRelease ++ [.request releaseCall (.commitJob releaseJobId) true []])

theorem runs_one_at_a_time_committing :
    releaseCommitting.service.commits.map (·.job.header.jobId) = [releaseJobId] ∧
      (releaseCommitting.service.commits.all fun commit => commit.channel matches .empty) ∧
      releaseCommitting.OneAtATime quietPolicy := by
  have hfresh : beforeRelease.Fresh := Daemon.fresh_fresh rfl
  refine ⟨by decide +kernel, by decide +kernel, runs_one_at_a_time quietPolicy hfresh ?_⟩
  exact Daemon.after_runs ⟨trivial, trivial, trivial, trivial, trivial, trivial, trivial⟩

end Release

end Se7en.Windows
